import FrappeController.PythonText
import FrappeController.OperationAuthoring

/-!
# `lifecycle_authoring.py`: payloads of lifecycle operations

`validate_lifecycle_payload` normalizes the payload of a lifecycle operation. The payload is
whatever `json.loads` may return, strings with surrogates included. `StrLibrary` stands for the
tables of Unicode and of the codecs: every theorem holds for all of them.
-/

namespace FrappeController

/-- What Python's `str` and its codecs compute from their tables. -/
structure StrLibrary where
  /-- `s.lower()` -/
  lower : PyStr → PyStr
  /-- `s.casefold()` -/
  casefold : PyStr → PyStr
  /-- `s.encode("idna").decode("ascii")`, nothing where it raises `UnicodeError` -/
  idna : PyStr → Option PyStr

/-- How a normalizer fails: by its contract, or by an exception it does not catch. -/
inductive AuthoringFault where
  /-- `OperationAuthoringError(message)` -/
  | contract (message : String)
  | unicodeEncodeError
  | typeError
  | overflowError
  deriving DecidableEq, Repr

namespace PyJson

/-- The fields of a `dict`. -/
abbrev Fields := List (PyStr × PyJson)

/-- `fields[key]`, where there is one. -/
def field? (fields : Fields) (key : String) : Option PyJson := fields.lookup (.ofString key)

/-- `fields.get(key)` -/
def field (fields : Fields) (key : String) : PyJson := (field? fields key).getD .null

/-- `not set(fields) - set(allowed)` -/
def keysWithin (fields : Fields) (allowed : List String) : Bool :=
  fields.all fun f => (allowed.map PyStr.ofString).contains f.1

end PyJson

namespace LifecycleAuthoring

open PyJson

/-! ## Operations -/

/-- `_SENSITIVE` -/
def sensitiveMarkers : List String :=
  ["api_key", "credential", "encryption_key", "password", "private_key", "secret", "token"]

/-- `_CREATE_BACKUP` -/
def createBackup : List String := ["site.create", "site.create_from_backup"]

/-- `_BASE_ONLY` -/
def baseOnly : List String :=
  ["site.create_blank", "site.migrate", "site.scheduler.enable", "site.scheduler.disable",
    "site.maintenance.enable", "site.maintenance.disable"]

/-- `_DESTRUCTIVE` -/
def destructiveOperations : List String := ["site.restore", "site.reinstall", "site.delete"]

/-- `LIFECYCLE_AUTHORING_OPERATIONS` -/
def operations : List String :=
  createBackup ++ baseOnly ++ destructiveOperations ++ ["site.backup", "site.config.update"]

/-- `_fail` -/
def fail {α : Type} : Except AuthoringFault α := .error (.contract "lifecycle payload is invalid")

/-- Raise unless the condition holds. -/
def require (condition : Bool) : Except AuthoringFault Unit := if condition then .ok () else fail

/-! ## Fields -/

section Fields

variable (lib : StrLibrary)

/-- `_domain` -/
def domain : PyJson → Except AuthoringFault String
  | .str s =>
    match (lib.idna (lib.lower (s.rstrip '.'))).bind PyStr.toString? with
    | some normalized => if Inventory.isDomain normalized then .ok normalized else fail
    | none => fail
  | _ => fail

/-- `payload.get("execution_timeout_seconds", 3600)` -/
def timeout (payload : Fields) : Except AuthoringFault ℤ :=
  match field? payload "execution_timeout_seconds" with
  | none => .ok 3600
  | some (.int n) => if 60 ≤ n ∧ n ≤ 86400 then .ok n else fail
  | some _ => fail

/-- `payload.get("expected_inventory_digest")` -/
def inventoryDigest (payload : Fields) : Except AuthoringFault PyJson :=
  match field payload "expected_inventory_digest" with
  | .null => .ok .null
  | .str s => if s.fullmatch isSha256 then .ok (.str s) else fail
  | _ => fail

/-- `_base`, after the check of the names. -/
def base (payload : Fields) : Except AuthoringFault Fields := do
  let timeout ← timeout payload
  let digest ← inventoryDigest payload
  let domain ← domain lib (field payload "domain")
  return [(.ofString "domain", .str (.ofString domain)),
    (.ofString "execution_timeout_seconds", .int timeout),
    (.ofString "expected_inventory_digest", digest)]

/-- The check of the names in `_base`. -/
def checkNames (payload : Fields) (allowed : List String) : Except AuthoringFault Unit :=
  require (keysWithin payload allowed && (field? payload "domain").isSome)

/-- `_trimmed_text` -/
def trimmedText (value : PyJson) (minimum maximum : ℕ) : Except AuthoringFault PyJson :=
  match value with
  | .str s =>
    if minimum ≤ s.length ∧ s.length ≤ maximum ∧ s.isStripped = true
        ∧ s.hasChar (Char.ofNat 0) = false then .ok (.str s)
    else fail
  | _ => fail

/-- A trimmed text, or `None`. -/
def optionalText (value : PyJson) (minimum maximum : ℕ) : Except AuthoringFault PyJson :=
  match value with
  | .null => .ok .null
  | value => trimmedText value minimum maximum

/-- `payload.get(name, default)`, a boolean. -/
def flag (payload : Fields) (name : String) (default : Bool) : Except AuthoringFault PyJson :=
  match field? payload name with
  | none => .ok (.bool default)
  | some (.bool b) => .ok (.bool b)
  | some _ => fail

/-! ## Families -/

/-- `common` -/
def common : List String := ["domain", "execution_timeout_seconds", "expected_inventory_digest"]

/-- The fields of a creation from a backup. -/
def backupNames : List String :=
  ["template_name", "bucket_name", "backup_prefix", "restore_public_files",
    "restore_private_files", "restore_encryption_key"]

def backupFields (payload : Fields) : Except AuthoringFault Fields := do
  let template ← trimmedText (field payload "template_name") 1 253
  let bucket ← optionalText (field payload "bucket_name") 3 63
  let start ← optionalText (field payload "backup_prefix") 0 512
  let publicFiles ← flag payload "restore_public_files" false
  let privateFiles ← flag payload "restore_private_files" false
  let encryptionKey ← flag payload "restore_encryption_key" false
  return [(.ofString "template_name", template), (.ofString "bucket_name", bucket),
    (.ofString "backup_prefix", start), (.ofString "restore_public_files", publicFiles),
    (.ofString "restore_private_files", privateFiles),
    (.ofString "restore_encryption_key", encryptionKey)]

def siteBackupFields (payload : Fields) : Except AuthoringFault Fields := do
  let withFiles ← flag payload "with_files" true
  return [(.ofString "with_files", withFiles)]

/-- `payload.get("quarantine_days", 7)` -/
def quarantineDays (payload : Fields) : Except AuthoringFault ℤ :=
  match field? payload "quarantine_days" with
  | none => .ok 7
  | some (.int n) => if 1 ≤ n ∧ n ≤ 90 then .ok n else fail
  | some _ => fail

/-- `payload.get("purge", False) is not False` -/
def checkPurge (payload : Fields) : Except AuthoringFault Unit :=
  match field? payload "purge" with
  | none | some (.bool false) => .ok ()
  | some _ => fail

def deleteFields (payload : Fields) : Except AuthoringFault Fields := do
  let days ← quarantineDays payload
  checkPurge payload
  return [(.ofString "quarantine_days", .int days), (.ofString "purge", .bool false)]

/-- `_CONFIG_KEY` -/
def isConfigKey (key : String) : Bool :=
  Inventory.isWord key.toList && key.toList.length ≤ 64

/-- `payload.get("key")` -/
def configKey (payload : Fields) : Except AuthoringFault PyJson :=
  match field payload "key" with
  | .str s =>
    if s.fullmatch isConfigKey
        ∧ (sensitiveMarkers.any fun marker => (lib.casefold s).contains marker) = false then
      .ok (.str s)
    else fail
  | _ => fail

/-- The text of a configuration value; its length is taken of its encoding. -/
def configText (s : PyStr) : Except AuthoringFault PyJson :=
  if s = [] ∨ s.isStripped = false then fail
  else
    match s.encode? with
    | none => .error .unicodeEncodeError
    | some text =>
      if utf8Length text ≤ 2048 ∧ s.hasChar (Char.ofNat 0) = false ∧ s.hasChar '\n' = false
          ∧ s.hasChar '\r' = false then .ok (.str s)
      else fail

/-- `payload.get("value")` -/
def configValue (payload : Fields) : Except AuthoringFault PyJson :=
  match field payload "value" with
  | .bool b => .ok (.bool b)
  | .int n => if -2 ^ 31 ≤ n ∧ n < 2 ^ 31 then .ok (.int n) else fail
  | .str s => configText s
  | _ => fail

def configFields (payload : Fields) : Except AuthoringFault Fields := do
  let key ← configKey lib payload
  let value ← configValue payload
  let reason ← trimmedText (field payload "reason") 1 512
  return [(.ofString "key", key), (.ofString "value", value), (.ofString "reason", reason)]

/-- What a family allows beside the common fields. -/
def extraNames (operation : String) : List String :=
  if createBackup.contains operation then backupNames
  else if ["site.restore", "site.reinstall"].contains operation then
    backupNames ++ ["confirmation", "pre_operation_backup"]
  else if operation = "site.backup" then ["with_files"]
  else if operation = "site.delete" then
    ["confirmation", "pre_operation_backup", "quarantine_days", "purge"]
  else if operation = "site.config.update" then ["key", "value", "reason"]
  else []

/-- The fields of a family beside the common ones. -/
def extraFields (operation : String) (payload : Fields) : Except AuthoringFault Fields :=
  if createBackup.contains operation || ["site.restore", "site.reinstall"].contains operation then
    backupFields payload
  else if operation = "site.backup" then siteBackupFields payload
  else if operation = "site.delete" then deleteFields payload
  else if operation = "site.config.update" then configFields lib payload
  else .ok []

/-- The confirmation of a destructive operation. -/
def confirmationFields (operation : String) (payload normalized : Fields) :
    Except AuthoringFault Fields :=
  if destructiveOperations.contains operation then do
    let confirmation ← domain lib (field payload "confirmation")
    match field normalized "domain", field payload "pre_operation_backup" with
    | .str name, .bool true =>
      if name = PyStr.ofString confirmation then
        return [(.ofString "confirmation", .str (.ofString confirmation)),
          (.ofString "pre_operation_backup", .bool true)]
      else fail
    | _, _ => fail
  else .ok []

/-- `PayloadAuthorization` of a lifecycle payload. -/
structure Authorization where
  normalizedPayload : Fields
  siteRequired : Bool
  destructive : Bool
  preOperationBackup : Bool

/-- `bool(normalized.get("pre_operation_backup", False))` -/
def backedUp (normalized : Fields) : Bool :=
  match field? normalized "pre_operation_backup" with
  | some (.bool b) => b
  | _ => false

/-- The normalized payload of an operation of the catalogue. -/
def normalize (operation : String) (payload : Fields) : Except AuthoringFault Fields := do
  checkNames payload (common ++ extraNames operation)
  let base ← base lib payload
  let extra ← extraFields lib operation payload
  let confirmation ← confirmationFields lib operation payload base
  return base ++ extra ++ confirmation

/-- `validate_lifecycle_payload` -/
def validate (operation : String) (rawPayload : PyJson) : Except AuthoringFault Authorization :=
  match rawPayload with
  | .obj payload =>
    if operations.contains operation then do
      let normalized ← normalize lib operation payload
      return {
        normalizedPayload := normalized
        siteRequired :=
          !(["site.create", "site.create_blank", "site.create_from_backup"].contains operation)
        destructive := destructiveOperations.contains operation
        preOperationBackup := backedUp normalized }
    else .error (.contract "unsupported lifecycle operation")
  | _ => .error (.contract "unsupported lifecycle operation")

end Fields

/-- The validator of the authoring service, on payloads that have no surrogates. -/
def validator (lib : StrLibrary) : OperationAuthoring.PayloadValidator := fun operation payload =>
  match validate lib operation (.obj (ofFields payload)) with
  | .ok authorization =>
    match toFields? authorization.normalizedPayload with
    | some normalizedPayload => .ok {
        normalizedPayload, siteRequired := authorization.siteRequired
        destructive := authorization.destructive
        preOperationBackup := authorization.preOperationBackup }
    | none => .error (.python "UnicodeEncodeError")
  | .error (.contract message) => .error (.operationAuthoring message)
  | .error .unicodeEncodeError => .error (.python "UnicodeEncodeError")
  | .error .typeError => .error (.python "TypeError")
  | .error .overflowError => .error (.python "OverflowError")

end LifecycleAuthoring

end FrappeController
