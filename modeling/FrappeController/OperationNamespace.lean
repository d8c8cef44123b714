import FrappeController.Library.Interruption
import FrappeController.Python
import Mathlib.Data.List.Dedup
import Mathlib.Logic.Function.Basic

/-!
# `operation_namespace.py`: controller operations leave ERPNext's table

`migrate` runs before every schema migration. It moves the rows of `tabOperation` that carry a
controller operation's identity to `tabController Operation`, with their credentials and the
references to them. Its statements are those of an `Interruption.Program`: what an attempt that is
stopped leaves behind is what the statements before did. A rollback to the last commit (the DDL
commits) leaves one of the same states.
-/

namespace FrappeController
namespace OperationNamespace

open Interruption (Program)

/-! ## The site's tables -/

/-- A row: its name, and the value of each column, `none` where it is NULL. -/
structure Row where
  name : String
  value : String → Option String

/-- A line of `SHOW INDEX`. -/
structure IndexLine where
  keyName : String
  columnName : String
  nonUnique : Bool
  deriving DecidableEq

structure DataTable where
  columns : List String
  rows : List Row
  indexes : List IndexLine

/-- A row of `__Auth`. -/
structure Credential where
  doctype : String
  name : String
  fieldname : String
  password : String
  encrypted : Bool
  deriving DecidableEq

structure Site where
  /-- `tabOperation`, if it exists. -/
  operation : Option DataTable
  /-- `tabController Operation`, if it exists. -/
  controllerOperation : Option DataTable
  auth : List Credential
  /-- The tables of the other doctypes. -/
  tables : String → Option DataTable

/-- What the two `reload_doc` bring: the columns of each doctype, and the defaults of the new
one's. -/
structure Schemas where
  controllerOperation : List String
  operation : List String
  default : String → Option String

inductive MigrationError where
  | assertion
  | conflictingIdentities
  | integrity
  | conflictingCredentials
  deriving DecidableEq

section Reads

variable (db : Site)

def operationRows : List Row := (db.operation.map (·.rows)).getD []

def controllerRows : List Row := (db.controllerOperation.map (·.rows)).getD []

/-- `db.table_exists("Operation") and "operation_id" in db.get_table_columns("Operation")` -/
def legacySchema : Bool := (db.operation.map (·.columns.contains "operation_id")).getD false

/-- `IFNULL(operation_id,'')<>''` -/
def isLegacy (row : Row) : Bool := truthy (row.value "operation_id")

/-- The rows to be moved. -/
def legacyRows : List Row := (operationRows db).filter isLegacy

/-- `SELECT name FROM tabOperation WHERE IFNULL(operation_id,'')<>''` -/
def legacyNames : List String := (legacyRows db).map (·.name)

/-- The columns both tables have; their order only shows in the text of the statement. -/
def sharedColumns : List String :=
  match db.operation, db.controllerOperation with
  | some old, some new => (old.columns.filter new.columns.contains).dedup
  | _, _ => []

/-- `o.column <> n.column`, which is not true where one of them is NULL. -/
def differ (o n : Row) (column : String) : Bool :=
  match o.value column, n.value column with
  | some a, some b => a != b
  | _, _ => false

/-- A legacy row and a row of the new table have one name and two identities. -/
def conflicts : Bool :=
  (legacyRows db).any fun o => (controllerRows db).any fun n =>
    n.name == o.name && (differ o n "operation_id" || differ o n "payload_hash")

/-- A credential of a legacy row. -/
def isLegacyCredential (c : Credential) : Bool :=
  c.doctype == "Operation" && (legacyNames db).contains c.name

/-- The same credential of the row with this name in the new table. -/
def Credential.moved (c : Credential) : Credential := { c with doctype := "Controller Operation" }

/-- `PRIMARY KEY (doctype, name, fieldname)` -/
def Credential.sameKey (c c' : Credential) : Bool :=
  c.doctype == c'.doctype && c.name == c'.name && c.fieldname == c'.fieldname

/-- A legacy credential and the one it would be are different. -/
def credentialConflicts : Bool :=
  db.auth.any fun o => isLegacyCredential db o && db.auth.any fun n =>
    n.sameKey o.moved && (o.password != n.password || o.encrypted != n.encrypted)

end Reads

/-! ## Statements -/

/-- `reload_doc(..., force=True)`: columns are added, none is dropped. -/
def reloadDoc (columns : List String) (table : Option DataTable) : DataTable :=
  match table with
  | none => { columns, rows := [], indexes := [] }
  | some t => { t with columns := t.columns ++ columns.filter fun c => !t.columns.contains c }

section Statements

variable (S : Schemas)

def reloadController (db : Site) : Except MigrationError Site :=
  .ok { db with controllerOperation := some (reloadDoc S.controllerOperation db.controllerOperation) }

/-- The row `INSERT INTO ... SELECT` makes of a row of the old table. -/
def copyRow (columns : List String) (o : Row) : Row where
  name := o.name
  value c := if columns.contains c then o.value c else S.default c

/-- The rows `INSERT INTO ... SELECT` inserts: those whose name the new table does not have. -/
def freshRows (columns : List String) (db : Site) : List Row :=
  ((legacyRows db).filter fun o => !(controllerRows db).any fun n => n.name == o.name).map
    (copyRow S columns)

/-- The unique columns of a Controller Operation, besides its name. -/
def uniqueColumns : List String := ["operation_id", "idempotency_key", "bulk_target"]

/-- A new row has a value of a unique column that another row has. -/
def clash (old fresh : List Row) : Bool :=
  uniqueColumns.any fun c =>
    (fresh.filterMap (·.value c)).any (old.filterMap (·.value c)).contains
      || !decide (fresh.filterMap (·.value c)).Nodup

/-- The rows of the new table. -/
def setControllerRows (rows : List Row) (db : Site) : Site :=
  { db with controllerOperation := db.controllerOperation.map fun t => { t with rows } }

def insertOperations (columns : List String) (db : Site) : Except MigrationError Site :=
  if clash (controllerRows db) (freshRows S columns db) then .error .integrity
  else .ok (setControllerRows (controllerRows db ++ freshRows S columns db) db)

/-- The credentials `INSERT IGNORE` inserts: those whose key is free. -/
def freshCredentials (db : Site) : List Credential :=
  ((db.auth.filter (isLegacyCredential db)).map (·.moved)).filter fun c =>
    !db.auth.any c.sameKey

def insertCredentials (db : Site) : Except MigrationError Site :=
  .ok { db with auth := db.auth ++ freshCredentials db }

def deleteCredentials (db : Site) : Except MigrationError Site :=
  .ok { db with auth := db.auth.filter fun c => !isLegacyCredential db c }

/-- The columns of a doctype that refer to a document of any doctype. -/
structure Reference where
  doctype : String
  kind : String
  name : String
  deriving DecidableEq

def references : List Reference :=
  [⟨"Comment", "reference_doctype", "reference_name"⟩, ⟨"Version", "ref_doctype", "docname"⟩,
    ⟨"File", "attached_to_doctype", "attached_to_name"⟩,
    ⟨"Communication", "reference_doctype", "reference_name"⟩,
    ⟨"DocShare", "share_doctype", "share_name"⟩, ⟨"ToDo", "reference_type", "reference_name"⟩,
    ⟨"Notification Log", "document_type", "document_name"⟩,
    ⟨"Activity Log", "reference_doctype", "reference_name"⟩,
    ⟨"User Permission", "allow", "for_value"⟩]

/-- The row refers to a legacy row of `tabOperation`. -/
def refersToLegacy (names : List String) (r : Reference) (row : Row) : Bool :=
  row.value r.kind == some "Operation" && ((row.value r.name).map names.contains).getD false

/-- The reference of a row after the update. -/
def moveRow (names : List String) (r : Reference) (row : Row) : Row :=
  if refersToLegacy names r row then
    { row with value := Function.update row.value r.kind (some "Controller Operation") }
  else row

/-- A table after the update, if it has the two columns. -/
def moveTable (names : List String) (r : Reference) (t : DataTable) : DataTable :=
  if t.columns.contains r.kind && t.columns.contains r.name then
    { t with rows := t.rows.map (moveRow names r) }
  else t

def moveReference (r : Reference) (db : Site) : Except MigrationError Site :=
  let moved := (db.tables r.doctype).map (moveTable (legacyNames db) r)
  .ok { db with tables := Function.update db.tables r.doctype moved }

def deleteOperations (db : Site) : Except MigrationError Site :=
  .ok { db with operation := db.operation.map fun t =>
    { t with rows := t.rows.filter fun row => !isLegacy row } }

/-- The unique indexes on columns only controller operations have. -/
def legacyIndexes (db : Site) : List String :=
  ((((db.operation.map (·.indexes)).getD []).filter fun i =>
    uniqueColumns.contains i.columnName && !i.nonUnique && i.keyName != "PRIMARY").map
      (·.keyName)).dedup

def dropIndex (keyName : String) (db : Site) : Except MigrationError Site :=
  .ok { db with operation := db.operation.map fun t =>
    { t with indexes := t.indexes.filter fun i => i.keyName != keyName } }

def reloadOperation (db : Site) : Except MigrationError Site :=
  .ok { db with operation := some (reloadDoc S.operation db.operation) }

/-! ## The migration -/

/-- From `SHOW INDEX` on. -/
def dropIndexes : Program MigrationError Site :=
  .read fun db => (Program.write (reloadOperation S) .done).writes dropIndex (legacyIndexes db)

/-- From the updates of the references on. -/
def moveReferences : Program MigrationError Site :=
  (Program.write deleteOperations (dropIndexes S)).writes moveReference references

/-- From the check on the credentials on. -/
def moveCredentials : Program MigrationError Site :=
  .read fun db =>
    if credentialConflicts db then .raise .conflictingCredentials
    else .write insertCredentials (.write deleteCredentials (moveReferences S))

/-- From the check on the identities on. -/
def moveOperations (columns : List String) : Program MigrationError Site :=
  .read fun db =>
    if conflicts db then .raise .conflictingIdentities
    else .write (insertOperations S columns) (moveCredentials S)

/-- What follows the reload of the new schema. -/
def moveLegacy : Program MigrationError Site :=
  .read fun db =>
    if ["name", "operation_id", "payload_hash"].all (sharedColumns db).contains then
      moveOperations S (sharedColumns db)
    else .raise .assertion

/-- `migrate` -/
def migrate : Program MigrationError Site :=
  .read fun db =>
    if legacySchema db then .write (reloadController S) (moveLegacy S) else .done

end Statements

end OperationNamespace
end FrappeController
