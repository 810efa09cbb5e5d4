import FirebirdSql.Error
import FirebirdSql.Url

/-!
Settings of a connection and of the statements that are made for it. A URL names the server and the database; its
query sets the rest.
-/

namespace FirebirdSql

structure Options where
  host : String
  port : Nat
  user : String
  password : String
  database : String
  role : Option String
  charset : String
  /-- A banner that stands for asking the server. -/
  serverVersion : Option String
  /-- Column defaults stay in the database after a field is added or altered. -/
  keepDbDefaults : Bool
  /-- A connection needs a commit after a schema change to see the new columns. -/
  persistsOldColumns : Bool
  /-- Every statement that changes the schema is a transaction of its own. -/
  commitAfterDdl : Bool
  /-- Timestamps with an offset are converted. -/
  useTz : Bool
  /-- The bound that is written where rows are skipped but not limited. -/
  noLimitValue : Option Nat
  deriving DecidableEq, Repr

namespace Options

def standard : Options := {
  host := "localhost"
  port := 3050
  user := "SYSDBA"
  password := ""
  database := ""
  role := none
  charset := "UTF8"
  serverVersion := none
  keepDbDefaults := false
  persistsOldColumns := false
  commitAfterDdl := true
  useTz := false
  noLimitValue := none }

def readFlag (name value : String) : Except Error Bool :=
  let v := String.ofList (value.toList.map Char.toLower)
  if ["1", "true", "yes", "on"].contains v then .ok true
  else if ["0", "false", "no", "off"].contains v then .ok false
  else .error (.invalidOption name value)

/-- Sets the option of a pair of the query. -/
def set (o : Options) (name value : String) : Except Error Options :=
  match name with
  | "role" => .ok { o with role := some value }
  | "charset" => .ok { o with charset := value }
  | "server_version" => .ok { o with serverVersion := some value }
  | "keep_db_defaults" => do return { o with keepDbDefaults := ← readFlag name value }
  | "connection_persists_old_columns" => do return { o with persistsOldColumns := ← readFlag name value }
  | "commit_after_ddl" => do return { o with commitAfterDdl := ← readFlag name value }
  | "use_tz" => do return { o with useTz := ← readFlag name value }
  | "no_limit_value" =>
    match Text.readUpTo? 0xFFFFFFFFFFFFFFFF value.toList with
    | some n => .ok { o with noLimitValue := some n }
    | none => .error (.invalidOption name value)
  | _ => .error (.invalidOption name value)

/-- Sets the options of all pairs in order. -/
def setAll (o : Options) : List (String × String) → Except Error Options
  | [] => .ok o
  | (name, value) :: rest =>
    match o.set name value with
    | .ok o => o.setAll rest
    | .error e => .error e

/-- The scheme of connection URLs. -/
def scheme : String := "firebird"

/-- The settings that the parts of a URL before its query make. -/
def ofParts (url : Url) : Options :=
  let decode (s : String) : String := Text.Percent.decodeText s.toList
  { standard with
    host := url.host.getD standard.host
    port := url.port.getD standard.port
    user := if url.username.isEmpty then standard.user else decode url.username
    password := (url.password.map decode).getD standard.password
    database := Text.Percent.decodeText (url.path.toList.dropWhile (· == '/')) }

def ofUrl (text : String) : Except Error Options :=
  match Url.read text with
  | .error fault => .error (.url fault)
  | .ok url =>
    if url.scheme ≠ scheme then .error (.invalidOption "scheme" url.scheme)
    else
      let o := ofParts url
      if o.database.isEmpty then .error (.invalidOption "database" "")
      else o.setAll (Url.pairs (url.query.getD ""))

end Options

end FirebirdSql
