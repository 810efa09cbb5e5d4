import FirebirdSql.Editor.Alter
import FirebirdSql.Proofs.Catalog.Sharing

/-!
What can be asked of an editor, one request after another: statements of the caller, changes of tables, fields and
indexes, questions to the catalog, and to finish.
-/

namespace FirebirdSql

/-- The questions for what counts in a table. -/
def Sequence.IsAsked (s : Sequence) (q : CatalogQuery) : Prop :=
  q = .trigger s.triggerCatalogName ∨ q = .sequence s.sequenceCatalogName

namespace Editor

inductive Request where
  | execute (fragment : Fragment)
  | createIndex (table name : String) (columns : List String) (unique : Bool)
  | addIndex (model : Model) (index : Index)
  | removeIndex (model : Model) (index : Index)
  | createModel (model : Model)
  | deleteModel (model : Model)
  | renameModel (model : Model) (name : String)
  | alterUniqueTogether (model : Model) (old new : List (List String))
  | alterIndexTogether (model : Model) (old new : List (List String))
  | addField (model : Model) (field : Field)
  | removeField (model : Model) (field : Field)
  | alterField (alteration : Alteration)
  | describe (inquiry : Catalog.Inquiry)
  | ask (query : CatalogQuery)
  | finish

namespace Request

def run (ed : Editor σ) : Request → Edit σ Unit
  | .execute f => ed.execute (.custom f)
  | .createIndex table name columns unique => ed.createIndex table name columns unique
  | .addIndex m i => ed.addIndex m i
  | .removeIndex m i => ed.removeIndex m i
  | .createModel m => ed.createModel m
  | .deleteModel m => ed.deleteModel m
  | .renameModel m name => ed.renameModel m name
  | .alterUniqueTogether m old new => ed.alterUniqueTogether m old new
  | .alterIndexTogether m old new => ed.alterIndexTogether m old new
  | .addField m f => ed.addField m f
  | .removeField m f => ed.removeField m f
  | .alterField a => ed.alterField a
  | .describe i => do
    let _ ← onBase (i.cached ed.cursor ed.engine)
    return ()
  | .ask q => do
    let _ ← onLink (Catalog.ask ed.cursor q)
    return ()
  | .finish => do
    let _ ← ed.finish
    return ()

/-- The columns of a table are others afterwards, which the connection sees after a commit. -/
def refreshes : Request → Bool
  | .addField .. | .removeField .. | .alterField _ => true
  | _ => false

/-- The questions whose answers are taken as given while statements are only collected: for what the request drops if it
is there, and for the keys that reference a column which is altered. -/
def Presumes (e : Engine) : Request → CatalogQuery → Prop
  | .deleteModel m, q => q = .sequence (Sequence.ofTable e m.table).sequenceCatalogName
  | .addField m f, q =>
    f.default.isSome = true ∧ q = .columnDefault (Identifier.catalogName e m.table) (Identifier.catalogName e f.column)
  | .removeField m f, q => f.type.isAuto = true ∧ (Sequence.ofTable e m.table).IsAsked q
  | .alterField a, q =>
    (∃ column, q = .incomingKeys (Identifier.catalogName e a.table) column) ∨
      a.old.type.isAuto = true ∧ (Sequence.ofTable e a.table).IsAsked q
  | _, _ => False

end Request

end Editor

end FirebirdSql
