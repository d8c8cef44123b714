import FrappeController.FrappeInventory
import FrappeController.Dispatcher
import FrappeController.FeatureFlags

/-!
# `controller_operation.py`, `operation_target.py`: operation documents

The checks of the two documents, and their insertion. The checks are plain reads of the
transaction, so they see its snapshot with its own writes; the unique columns are those of the
committed rows.
-/

namespace FrappeController

/-- `_TRANSITIONS` of a Controller Operation and of an Operation Target. -/
def OperationState.transitions : OperationState → List OperationState
  | .awaitingApproval => [.queued, .cancelled]
  | .queued => [.leased, .failed, .cancelled, .timedOut]
  | .leased => [.queued, .running, .cancelled, .timedOut]
  | .running => [.queued, .succeeded, .failed, .cancelled, .timedOut, .needsIntervention,
      .deadLetter, .rejected]
  | _ => []

namespace OperationDocuments

open FrappeInventory (Session read readForUpdate write)

variable (R : Runtime)

/-! ## Data updates -/

/-- The command of a data update and its `dry_run`, where it has the shape of one. -/
def dataUpdate? (payloadJson : Text) : Option (List (String × Json) × Bool) :=
  match R.loads payloadJson with
  | some (.obj command) =>
    match Json.get command "payload" with
    | .obj payload =>
      match Json.get payload "dry_run" with
      | .bool dryRun =>
        if Ingestion.sameKeys command ["policy_id", "payload"] then some (command, dryRun) else none
      | _ => none
    | _ => none
  | _ => none

/-- The payload of a preview, and `{**command, "payload": {**payload, "dry_run": False}}`. -/
def applied? (payloadJson : Text) : Option (List (String × Json) × Json) :=
  match R.loads payloadJson with
  | some (.obj command) =>
    match Json.get command "payload" with
    | .obj payload =>
      some (payload, .obj (Json.set command "payload" (.obj (Json.set payload "dry_run" (.bool false)))))
    | _ => none
  | _ => none

/-- The preview is the succeeded dry run of just this command. -/
def previewed (op : ControllerOperation) (command : List (String × Json))
    (preview : ControllerOperation) : Bool :=
  match applied? R preview.payloadJson with
  | none => false
  | some (payload, expectedActual) =>
    preview.operationType == op.operationType
      && preview.serverAgent == op.serverAgent && preview.bench == op.bench
      && preview.managedSite == op.managedSite && preview.requestedBy == op.requestedBy
      && preview.state == .succeeded && preview.resultHash == op.previewResultHash
      && (match Json.get payload "dry_run" with | .bool dryRun => dryRun | _ => false)
      && Json.pyEq (.obj command) expectedActual

/-- Another operation applies the preview, or a bulk target that is not the operation's own is
bound to it. -/
def appliedElsewhere (db : Database) (op : ControllerOperation) (preview : String) : Bool :=
  db.operations.any (fun other => other.previewOf == some preview && other.name != op.name)
    || match db.bulkTargets.find? fun t => t.previewOperation == some preview with
      | none => false
      | some target => target.name != "" && target.name != (orNone op.bulkTarget).getD ""

/-- The checks on the preview a data update applies. -/
def validatePreview (db : Database) (op : ControllerOperation) : Except Exc Unit :=
  if isDataUpdate op.operationType then
    match dataUpdate? R op.payloadJson with
    | none => .error (.validation "Data update operation payload is invalid")
    | some (command, dryRun) =>
      match orNone op.previewOf with
      | none => ensure dryRun (.permission "An actual data update requires a successful preview")
      | some preview => do
        ensure (!dryRun) (.validation "A dry run cannot be promoted as an actual update")
        ensure (!appliedElsewhere db op preview)
          (.duplicateEntry "A data update preview may authorize only one apply lineage")
        ensure (((db.operation? preview).map (previewed R op command)).getD false)
          (.permission "Data update preview binding is invalid")
  else
    ensure (!truthy op.previewOf && !truthy op.previewResultHash)
      (.validation "Preview lineage is only valid for data updates")

/-! ## Lineage -/

/-- `LIFECYCLE_AUTHORING_OPERATIONS` -/
def lifecycleAuthoringOperations : List String :=
  ["site.create", "site.create_from_backup", "site.create_blank", "site.migrate",
    "site.scheduler.enable", "site.scheduler.disable", "site.maintenance.enable",
    "site.maintenance.disable", "site.restore", "site.reinstall", "site.delete", "site.backup",
    "site.config.update"]

/-- `RETRY_STATES` -/
def retryState : OperationState → Bool
  | .failed | .cancelled | .timedOut | .needsIntervention | .deadLetter | .rejected => true
  | _ => false

/-- `validate_retry_source`, with the class of the errors it raises. -/
def validateRetrySource (raised : String → Exc) (op : ControllerOperation)
    (recoveryConfirmed : Bool) : Except Exc Unit := do
  ensure (retryState op.state) (raised "Only finished, unsuccessful operations can be retried")
  ensure (!truthy op.bulkParent && !truthy op.bulkTarget)
    (raised "Retry bulk children through the Bulk Operation workflow")
  ensure (lifecycleAuthoringOperations.contains op.operationType)
    (raised "This operation requires its dedicated workflow and a fresh preview")
  ensure (!(op.state == .timedOut || op.state == .needsIntervention) || recoveryConfirmed)
    (raised ("Review the original job and verify it has stopped and any partial changes are safe "
      ++ "before confirming recovery"))

/-- The columns a retry has of its source. -/
def retryColumns (op : ControllerOperation) :
    Option String × Option String × Option String × Option String × Option String :=
  (orNone (some op.operationType), orNone (some op.serverAgent), orNone (some op.bench),
    orNone op.managedSite, orNone (some op.payloadHash))

/-- The checks on the source of a retry. -/
def validateRetry (isNew service : Bool) (db : Database) (op : ControllerOperation)
    (source : String) : Except Exc Unit := do
  ensure (!isNew || service) (.permission "Retry lineage is service-owned")
  match db.operation? source with
  | none => .error (.doesNotExist "Controller Operation")
  | some source => do
    validateRetrySource .validation source true
    ensure (retryColumns op == retryColumns source)
      (.validation "Retry must preserve the original operation payload and target")

/-- The operation that ended unsuccessfully and that a bulk child tries again. -/
def bulkRetryLineage (db : Database) (op : ControllerOperation) (parent : String)
    (target : BulkOperationTarget) : Bool :=
  let lineageTarget := (orNone target.retryOf).orElse fun _ => target.retrySource
  let previousTarget := (lineageTarget.bind db.bulkTarget?).bind (·.childOperation)
  match op.retryOf.bind db.operation? with
  | none => false
  | some previous =>
    truthy op.retryOf && previousTarget == op.retryOf
      && (previous.bulkParent == some parent
        || previous.bulkParent == (db.bulkOperation? parent).bind (·.retryOf))
      && previous.operationType == op.operationType && previous.payloadHash == op.payloadHash
      && retryState previous.state && previous.state != .cancelled

/-- The checks on the bulk target of a child. -/
def validateBulkChild (db : Database) (op : ControllerOperation) : Except Exc Unit :=
  match orNone op.bulkParent, orNone op.bulkTarget with
  | some parent, some name => do
    ensure (truthy op.managedSite) (.validation "Bulk child operation linkage is incomplete")
    match db.bulkTarget? name with
    | none => .error (.validation "Bulk child operation target does not match")
    | some target => do
      ensure (target.bulkOperation == parent && target.serverAgent == op.serverAgent
          && target.bench == op.bench && some target.managedSite == op.managedSite)
        (.validation "Bulk child operation target does not match")
      ensure (!(target.attempt == 0 && truthy op.retryOf && !truthy target.retrySource))
        (.validation "Initial bulk child cannot have retry lineage")
      ensure (!(decide (0 < target.attempt) || truthy target.retrySource)
          || bulkRetryLineage db op parent target)
        (.validation "Bulk child retry lineage is invalid")
  | _, _ => .error (.validation "Bulk child operation linkage is incomplete")

/-- The checks on what the operation belongs to: a bulk target, or the operation it retries. -/
def validateLineage (isNew service : Bool) (db : Database) (op : ControllerOperation) :
    Except Exc Unit :=
  if truthy op.bulkParent || truthy op.bulkTarget then validateBulkChild db op
  else
    match orNone op.retryOf with
    | none => .ok ()
    | some source => validateRetry isNew service db op source

/-! ## `ControllerOperation` -/

/-- The checks of a row against the row it replaces. -/
def validatePrevious (service : Bool) (previous op : ControllerOperation) : Except Exc Unit := do
  immutableField previous.operationId op.operationId "operation_id"
  immutableField previous.idempotencyKey op.idempotencyKey "idempotency_key"
  immutableField previous.protocolVersion op.protocolVersion "protocol_version"
  immutableField previous.serverAgent op.serverAgent "server_agent"
  immutableField previous.bench op.bench "bench"
  immutableField previous.managedSite op.managedSite "managed_site"
  immutableField previous.operationType op.operationType "operation_type"
  immutableField previous.payloadJson op.payloadJson "payload_json"
  immutableField previous.payloadHash op.payloadHash "payload_hash"
  immutableField previous.requestedBy op.requestedBy "requested_by"
  immutableField previous.approvalPolicy op.approvalPolicy "approval_policy"
  immutableField previous.requiredApprovals op.requiredApprovals "required_approvals"
  immutableField previous.commandJson op.commandJson "command_json"
  immutableField previous.commandHash op.commandHash "command_hash"
  immutableField previous.bulkParent op.bulkParent "bulk_parent"
  immutableField previous.bulkTarget op.bulkTarget "bulk_target"
  immutableField previous.retryOf op.retryOf "retry_of"
  immutableField previous.previewOf op.previewOf "preview_of"
  immutableField previous.previewResultHash op.previewResultHash "preview_result_hash"
  ensure (previous.credentialReceivedAt == op.credentialReceivedAt || service)
    (.permission "Operation credential fields are service-owned")
  legalTransition OperationState.transitions .illegalTransition previous.state op.state

/-- The state is one a dispatched operation has. -/
def dispatched (state : OperationState) : Bool := state != .awaitingApproval

/-- The checks of the document's own columns. -/
def validateColumns (op : ControllerOperation) : Except Exc Unit := do
  ensure (op.protocolVersion == "1.0") (.validation "Unsupported operation protocol version")
  let _ ← requireJson R (some op.payloadJson) "payload_json"
  requireSha256 (some op.payloadHash) "payload_hash"
  requireOptionalJson R (op.commandJson.filter (· ≠ [])) "command_json"
  ensure (((orNone op.commandHash).map isSha256).getD true)
    (.validation "command_hash must be a lowercase SHA-256 digest")
  ensure (truthy op.previewOf == truthy op.previewResultHash)
    (.validation "Data update preview lineage is incomplete")
  ensure (((orNone op.previewResultHash).map isSha256).getD true)
    (.validation "preview_result_hash must be a lowercase SHA-256 digest")

/-- The checks on the agent, the bench and the site of the operation. -/
def validateOwnership (db : Database) (op : ControllerOperation) : Except Exc Unit := do
  requireLinkValue db.benches (some op.bench) (·.serverAgent) op.serverAgent
  match orNone op.managedSite with
  | none => return ()
  | some site => do
    requireLinkValue db.sites (some site) (·.bench) op.bench
    requireLinkValue db.sites (some site) (·.serverAgent) op.serverAgent

/-- The checks on the approvals. -/
def validateApprovals (op : ControllerOperation) : Except Exc Unit := do
  ensure (decide (0 ≤ op.requiredApprovals) && decide (0 ≤ op.approvalCount))
    (.validation "Approval counts cannot be negative")
  ensure (!(op.state == .queued || op.state == .leased)
      || op.approvalStatus == .approved || op.approvalStatus == .notRequired)
    (.permission "Operation approval threshold is not satisfied")
  ensure (!(op.approvalStatus == .notRequired && op.requiredApprovals != 0))
    (.permission "Required approvals cannot be bypassed")

/-- `ControllerOperation.validate` -/
def validate (previous : Option ControllerOperation) (service : Bool) (op : ControllerOperation)
    (db : Database) : Except Exc Unit := do
  validateColumns R op
  validatePreview R db op
  ensure (!dispatched op.state
      || (op.commandJson.any (· ≠ []) && truthy op.commandHash))
    (.validation "Dispatched operation requires an immutable command snapshot")
  validateOwnership db op
  validateLineage previous.isNone service db op
  validateApprovals op
  match previous with
  | some previous => validatePrevious service previous op
  | none =>
    ensure (op.credentialReceivedAt.isNone || service)
      (.permission "Operation credential fields are service-owned")

/-- The unique columns of a new operation are free. -/
def freeColumns (op : ControllerOperation) (db : Database) : Bool :=
  !db.operations.any fun other =>
    other.name == op.name || other.operationId == op.operationId
      || other.idempotencyKey == op.idempotencyKey
      || (truthy op.bulkTarget && other.bulkTarget == op.bulkTarget)

/-- `operation.insert()` of the user `user`. -/
def insertOperation (user : String) (service : Bool) (op : ControllerOperation) :
    EStateM Exc Session Unit := do
  Transaction.query fun _ => ensure (user == "Administrator" || op.requestedBy == user)
    (.permission "requested_by must be the authenticated user")
  read fun db => validate R none service op db
  readForUpdate fun db => ensure (freeColumns op db) (.duplicateEntry op.name)
  write fun db => { db with operations := db.operations ++ [op] }

/-- `operation.save()` of a copy read earlier; the document it replaces is the stored row. -/
def saveOperation (service : Bool) (op : ControllerOperation) : EStateM Exc Session Unit := do
  let previous ← readForUpdate fun db =>
    match db.operation? op.name with
    | none => .error (.doesNotExist "Controller Operation")
    | some previous => .ok previous
  read fun db => validate R (some previous) service op db
  write fun db => db.setOperation op.name fun _ => op

/-! ## `OperationTarget` -/

/-- The target of an operation. -/
def targetOf? (db : Database) (operation : String) : Option OperationTarget :=
  db.operationTargets.find? fun t => t.operation == operation

/-- The target repeats the columns of its operation. -/
def sameSnapshot (op : ControllerOperation) (t : OperationTarget) : Bool :=
  op.serverAgent == t.serverAgent && op.bench == t.bench && op.managedSite == t.managedSite
    && op.operationType == t.operationTypeSnapshot && op.payloadHash == t.payloadHashSnapshot

/-- The checks on the bulk target of a child's target. -/
def validateTargetBulk (op : ControllerOperation) (t : OperationTarget) : Except Exc Unit :=
  if truthy op.bulkParent || truthy op.bulkTarget || truthy t.bulkParent || truthy t.bulkTarget then do
    ensure (truthy t.bulkParent && truthy t.bulkTarget)
      (.validation "Bulk Operation Target linkage is incomplete")
    ensure (t.bulkParent == op.bulkParent && t.bulkTarget == op.bulkTarget)
      (.validation "Operation Target bulk linkage differs from Operation")
  else .ok ()

/-- The target of the operation that the parent retries. -/
def previousTarget (db : Database) (op : ControllerOperation) : Except Exc (Option String) :=
  match orNone op.retryOf with
  | none => .ok none
  | some source =>
    match targetOf? db source with
    | none => .error (.validation "Retry source target is missing")
    | some t => .ok (some t.name)

/-- `OperationTarget.validate` of a new row. -/
def validateTarget (t : OperationTarget) (db : Database) : Except Exc Unit := do
  requireSha256 (some t.payloadHashSnapshot) "payload_hash_snapshot"
  ensure (((orNone t.inventoryRevisionSnapshot).map isSha256).getD true)
    (.validation "inventory_revision_snapshot must be a lowercase SHA-256 digest")
  requireLinkValue db.benches (some t.bench) (·.serverAgent) t.serverAgent
  match orNone t.managedSite with
  | none => pure ()
  | some site => requireLinkValue db.sites (some site) (·.bench) t.bench
  match db.operation? t.operation with
  | none => .error (.validation "Operation Target snapshot differs from its parent")
  | some op => do
    ensure (sameSnapshot op t) (.validation "Operation Target snapshot differs from its parent")
    validateTargetBulk op t
    let previous ← previousTarget db op
    ensure (t.retryOf == previous)
      (.validation "Operation Target retry lineage differs from Operation")

/-- The unique columns of a new target are free. -/
def freeTargetColumns (t : OperationTarget) (db : Database) : Bool :=
  !db.operationTargets.any fun other =>
    other.name == t.name || other.targetKey == t.targetKey
      || (truthy t.bulkTarget && other.bulkTarget == t.bulkTarget)

/-- `target.insert()` -/
def insertTarget (t : OperationTarget) : EStateM Exc Session Unit := do
  read fun db => validateTarget t db
  readForUpdate fun db => ensure (freeTargetColumns t db) (.duplicateEntry t.name)
  write fun db => { db with operationTargets := db.operationTargets ++ [t] }

/-! ## Dispatch -/

/-- `enqueue_approved_operation`: the command is built from locked rows, the state it depends on
is a plain read. -/
def enqueueApprovedOperation (lifetime : ℕ) (name : String) (now : DateTime) :
    EStateM Exc Session (List (String × Json)) := do
  let env ← readForUpdate fun db => Dispatcher.envelope R lifetime db name now
  let op ← read fun db =>
    match db.operation? name with
    | none => .error (.python "AssertionError")
    | some op => .ok op
  let digest ← Transaction.query fun _ => immutableCommandHash R env
  if op.state = .queued ∧ orNone op.commandHash = some digest then return env
  else if op.state ≠ .awaitingApproval ∨ orNone op.commandHash ≠ none then
    throw (.dispatchConflict "operation is not dispatchable")
  else do
    let text ← Transaction.query fun _ => canonicalJson R (.obj env)
    write fun db => db.advance name none (Dispatcher.queue text digest)
      (fun t => { t with state := .queued }) id
    return env

end OperationDocuments

end FrappeController
