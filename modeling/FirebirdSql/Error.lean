import FirebirdSql.Catalog.ConstraintKind
import FirebirdSql.Temporal.DatePart
import FirebirdSql.Text.Utf8
import FirebirdSql.Url.Fault
import FirebirdSql.Value

/-!
The causes for which a request fails, their wording, and how callers sort them.
-/

namespace FirebirdSql

/-- A request that the engine has no means for. -/
inductive Unsupported where
  | lookup (name : String)
  | datePart (name : String)
  | truncatedDate (part : DatePart)
  | truncatedTime (part : DatePart)
  | truncatedToWeekDay
  | intervalConnector (connector : String)
  | aggregate (function : String)
  | lockWithoutWait
  | pageOfOtherStatement
  | selectWithoutColumns
  | shortConcatenation
  | noArguments (function : String)
  | renamedTable
  | shadow (kind : ConstraintKind) (name : String)
  | feature (what : String)
  deriving DecidableEq

/-- A catalog that does not hold what an operation relies on. -/
inductive Inconsistency where
  | silentSequence (sequence : String)
  | missingIndex (unique : Bool) (table : String) (columns : List String)
  | uniqueWithoutColumns (name : String)
  | checkWithoutSource (name : String)
  | foreignKeyWithoutTarget (name : String) (key : Option String)
  | finding (what : String)
  deriving DecidableEq

/-- A kind of value that was asked for. -/
inductive Expected where
  | text
  | integer
  | boolean
  deriving DecidableEq, Repr

/-- A kind of value to convert to. -/
inductive Target where
  | decimal
  | float
  | integer
  | uuid
  deriving DecidableEq, Repr

inductive ConversionFault where
  | unexpected (expected : Expected) (value : Value)
  | columnOutOfRange (index : Nat)
  | notUtf8 (fault : Text.Utf8.Fault)
  | tooLarge
  | tooSmall
  | notConvertible (value : Value) (target : Target)
  | intervalOutOfRange (interval : Duration)
  | timestampWithOffset
  | timeWithOffset
  | other (what : String)
  deriving DecidableEq

/-- A failure as the engine reports it. -/
structure EngineReport where
  sqlcode : Int
  gdscode : Nat
  message : String
  deriving DecidableEq

inductive Error where
  | notSupported (what : Unsupported)
  | integrity (report : EngineReport)
  | database (report : EngineReport)
  | catalogInconsistency (what : Inconsistency)
  | parameterMismatch (placeholders params : Nat)
  | invalidVersion (banner : String)
  | invalidOption (name value : String)
  | url (fault : Url.Fault)
  | conversion (fault : ConversionFault)
  deriving DecidableEq

/-- How a caller that only cares about recovery sorts an error. -/
inductive ErrorKind where
  | unsupported
  | integrity
  | schemaConflict
  | catalogInconsistency
  | generic
  deriving DecidableEq, Repr

def Unsupported.message : Unsupported → String
  | .lookup name => "lookup " ++ name
  | .datePart name => "date part " ++ name
  | .truncatedDate part => "truncating a DATE to " ++ part.title
  | .truncatedTime part => "truncating a TIME to " ++ part.title
  | .truncatedToWeekDay => "truncating to week_day"
  | .intervalConnector connector => "interval connector " ++ connector
  | .aggregate function => "aggregate " ++ function
  | .lockWithoutWait => "FOR UPDATE NOWAIT; use TransactionOptions::lock_wait(LockWait::NoWait)"
  | .pageOfOtherStatement => "pagination of a statement that is not a SELECT"
  | .selectWithoutColumns => "SELECT without columns"
  | .shortConcatenation => "CONCAT with fewer than two arguments"
  | .noArguments function => function ++ " without arguments"
  | .renamedTable => "renaming a table"
  | .shadow kind name => "shadowing " ++ kind.title ++ " " ++ name
  | .feature what => what

/-- An optional text, as messages show it. -/
def quotedOption : Option String → String
  | none => "None"
  | some s => "Some(" ++ Text.quoted s ++ ")"

def Inconsistency.message : Inconsistency → String
  | .silentSequence sequence => "sequence " ++ sequence ++ " returned no row"
  | .missingIndex unique table columns =>
    "found no " ++ (if unique then "unique constraint" else "index") ++ " for " ++ table ++ "(" ++
      Text.joined ", " columns ++ ")"
  | .uniqueWithoutColumns name => "unique " ++ name ++ " has no columns"
  | .checkWithoutSource name => "check " ++ name ++ " has no source"
  | .foreignKeyWithoutTarget name key =>
    "foreign key " ++ name ++ " has no matching referenced key " ++ quotedOption key
  | .finding what => what

def Expected.title : Expected → String
  | .text => "text"
  | .integer => "integer"
  | .boolean => "boolean"

def Target.title : Target → String
  | .decimal => "decimal"
  | .float => "float"
  | .integer => "integer"
  | .uuid => "uuid"

def utf8Message (fault : Text.Utf8.Fault) : String :=
  match fault.length with
  | some n =>
    "invalid utf-8 sequence of " ++ Text.natText n ++ " bytes from index " ++ Text.natText fault.index
  | none => "incomplete utf-8 byte sequence from index " ++ Text.natText fault.index

def ConversionFault.message : ConversionFault → String
  | .unexpected expected value => "expected " ++ expected.title ++ ", got " ++ value.description
  | .columnOutOfRange index => "column index " ++ Text.natText index ++ " out of range"
  | .notUtf8 fault => utf8Message fault
  | .tooLarge => "number too large to fit in target type"
  | .tooSmall => "number too small to fit in target type"
  | .notConvertible value target => "cannot convert " ++ value.description ++ " to " ++ target.title
  | .intervalOutOfRange interval => "interval " ++ interval.text ++ " out of range"
  | .timestampWithOffset =>
    "Firebird does not support timezone-aware datetimes when use_tz is false"
  | .timeWithOffset => "Firebird does not support timezone-aware times"
  | .other what => what

def EngineReport.describe (r : EngineReport) : String :=
  "(SQLCODE " ++ Text.intText r.sqlcode ++ ", GDSCODE " ++ Text.natText r.gdscode ++ "): " ++ r.message

namespace Error

def message : Error → String
  | .notSupported what => "not supported by Firebird: " ++ what.message
  | .integrity report => "integrity error " ++ report.describe
  | .database report => "database error " ++ report.describe
  | .catalogInconsistency what => "catalog inconsistency: " ++ what.message
  | .parameterMismatch placeholders params =>
    "statement has " ++ Text.natText placeholders ++ " placeholders but " ++ Text.natText params ++
      " parameters"
  | .invalidVersion banner => "cannot parse server version banner " ++ Text.quoted banner
  | .invalidOption name value => "invalid option " ++ name ++ "=" ++ Text.quoted value
  | .url fault => "invalid connection url: " ++ fault.message
  | .conversion fault => "value conversion failed: " ++ fault.message

/-- The engine's code for a key that is too long for an index. -/
def keyTooBigCode : Nat := 335544434

def keyTooBigText : List Char := "key size exceeds implementation restriction".toList

/-- The failure after which an index is built over a hash instead. -/
def isKeyTooBig : Error → Bool
  | .database report =>
    report.gdscode == keyTooBigCode ||
      Text.occurs keyTooBigText (report.message.toList.map Char.toLower)
  | _ => false

def kind (e : Error) : ErrorKind :=
  match e with
  | .notSupported _ => .unsupported
  | .integrity _ => .integrity
  | .catalogInconsistency _ => .catalogInconsistency
  | .database _ => if e.isKeyTooBig then .schemaConflict else .generic
  | _ => .generic

/-- Codes by which the engine reports a violated constraint. -/
def integritySqlcodes : List Int := [-803, -625, -530, -297]

def integrityGdscodes : List Nat := [335544349, 335544665, 335544466, 335544558, 335544347]

/-- An engine failure with a code of a violated constraint becomes an integrity error. -/
def classify : Error → Error
  | .database report =>
    if integritySqlcodes.contains report.sqlcode || integrityGdscodes.contains report.gdscode then
      .integrity report
    else .database report
  | e => e

theorem classify_idem (e : Error) : e.classify.classify = e.classify := by
  cases e with
  | database report =>
    by_cases h : (integritySqlcodes.contains report.sqlcode ||
        integrityGdscodes.contains report.gdscode) = true
    · simp only [classify, if_pos h]
    · simp only [classify, if_neg h]
  | _ => rfl

end Error

end FirebirdSql
