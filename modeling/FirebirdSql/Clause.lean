import FirebirdSql.Error
import FirebirdSql.Identifier

/-!
Clauses and terms that callers put into statements of their own.
-/

namespace FirebirdSql.Clause

/-- The greatest number of values in a list after `IN`. -/
def listLimit : Nat := 1500

def random : String := "RAND()"

/-- What an insertion writes for a key that counts by itself. -/
def newKey : String := "NULL"

/-- Constraints cannot be deferred. -/
def deferrable : String := ""

/-- The column contains the text that is bound. -/
def containing (e : Engine) (column : String) : String := (Identifier.quote e column).text ++ " CONTAINING ?"

/-- An insertion returns the key, on engines that can. -/
def returning? (e : Engine) (column : String) : Option String :=
  if e.returnsInsertedKey then some ("RETURNING " ++ (Identifier.quote e column).text) else none

/-- Rows are locked as they are read. Whether one waits for a lock is up to the transaction. -/
def rowLock (noWait : Bool) : Except Error String :=
  if noWait then .error (.notSupported .lockWithoutWait) else .ok "FOR UPDATE WITH LOCK"

def savepoint (e : Engine) (name : String) : String := "SAVEPOINT " ++ (Identifier.quote e name).text

def releaseSavepoint (e : Engine) (name : String) : String :=
  "RELEASE SAVEPOINT " ++ (Identifier.quote e name).text

def rollbackTo (e : Engine) (name : String) : String := "ROLLBACK TO " ++ (Identifier.quote e name).text

end FirebirdSql.Clause
