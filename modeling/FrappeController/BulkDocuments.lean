import FrappeController.Bulk
import FrappeController.OperationDocuments

/-!
# `bulk_operation.py`, `bulk_operation_target.py`: bulk documents

The checks of the two documents and their saves. As for operations, the checks are plain reads of
the transaction; the row a save replaces, and the unique columns, are those of the committed rows.
-/

namespace FrappeController

/-- `_TERMINAL` of a Bulk Operation. -/
def BulkState.terminalStates : List BulkState :=
  [.succeeded, .partlySucceeded, .failed, .cancelled, .needsIntervention, .rejected]

/-- `_TRANSITIONS` of a Bulk Operation. -/
def BulkState.transitions : BulkState → List BulkState
  | .draft => [.previewed, .cancelled]
  | .previewed => [.awaitingApproval, .cancelled]
  | .awaitingApproval => [.approved, .rejected, .cancelled]
  | .approved => [.canary, .running, .paused, .cancelling, .cancelled, .needsIntervention]
  | .canary => [.running, .paused, .cancelling] ++ terminalStates
  | .running => [.paused, .cancelling] ++ terminalStates
  | .paused => [.canary, .running, .cancelling, .cancelled]
  | .cancelling => [.cancelled, .partlySucceeded, .needsIntervention]
  | _ => []

/-- `_TERMINAL` of a Bulk Operation Target. -/
def BulkTargetState.terminalStates : List BulkTargetState :=
  [.child .succeeded, .child .failed, .child .cancelled, .child .timedOut, .child .deadLetter,
    .child .needsIntervention, .child .rejected]

/-- `_TRANSITIONS` of a Bulk Operation Target. -/
def BulkTargetState.transitions : BulkTargetState → List BulkTargetState
  | .planned => [.child .queued, .child .cancelled]
  | .child .queued => .child .running :: terminalStates
  | .child .running => .child .queued :: terminalStates
  | _ => []

namespace BulkDocuments

open FrappeInventory (Session read readForUpdate write)

variable (R : Runtime)

/-- A check against a row or a value that may be missing. -/
def ifSome {α : Type} (value : Option α) (check : α → Except Exc Unit) : Except Exc Unit :=
  match value with
  | none => .ok ()
  | some a => check a

/-! ## `BulkOperation` -/

section BulkOperation

variable (op : BulkOperation)

/-- The checks on the id and the idempotency key. -/
def validateIdentity : Except Exc Unit :=
  match R.uuid op.bulkOperationId with
  | none => .error (.validation "Bulk Operation ID must be a canonical UUID")
  | some operationId => do
    ensure (operationId == R.lower op.bulkOperationId)
      (.validation "Bulk Operation ID must be a canonical UUID")
    ensure (endsWith op.idempotencyKey operationId)
      (.validation "Bulk idempotency key must bind the operation UUID")

/-- `{"partial", "failed", "paused", "needs_intervention"}` -/
def retryableParent (state : BulkState) : Bool :=
  [BulkState.partlySucceeded, .failed, .paused, .needsIntervention].contains state

/-- The checks on the parent that is retried. -/
def validateRetryParent (isNew : Bool) (db : Database) : Except Exc Unit :=
  ifSome (orNone op.retryOf) fun source =>
    ensure (((db.bulkOperation? source).map fun source =>
        source.operationType == op.operationType && (!isNew || retryableParent source.state)).getD
      false) (.validation "Bulk retry parent lineage is invalid")

/-- `json.dumps(value, sort_keys=True, separators=(",", ":"), ensure_ascii=False,
allow_nan=False)` -/
def encode (value : Json) : Except Exc Text :=
  if (validateJson R false false value).isOk then .ok (R.dumps value)
  else .error (.python "Out of range float values are not JSON compliant")

/-- The checks on the JSON columns and their hashes, and the environment counts. -/
def validateJsonColumns : Except Exc (List (String × Json)) := do
  let payload ← requireJson R (some op.payloadJson) "payload_json"
  let selector ← requireJson R (some op.selectorJson) "selector_json"
  let environments ← requireJson R (some op.environmentCountsJson) "environment_counts_json"
  requireSha256 (some op.payloadHash) "payload_hash"
  requireSha256 (some op.selectorHash) "selector_hash"
  requireSha256 (some op.snapshotHash) "snapshot_hash"
  requireSha256 (some op.dryRunHash) "dry_run_hash"
  let encodedPayload ← encode R (.obj payload)
  ensure (R.sha256 encodedPayload == op.payloadHash)
    (.validation "Payload hash does not match payload JSON")
  let encodedSelector ← encode R (.obj selector)
  ensure (R.sha256 encodedSelector == op.selectorHash)
    (.validation "Selector hash does not match selector JSON")
  return environments

/-- `type(value) is int and value >= 0` -/
def count? : Json → Option ℤ
  | .int n => if 0 ≤ n then some n else none
  | _ => none

/-- The environments with their counts. -/
def environmentCounts (fields : List (String × Json)) : Except Exc (List (String × ℤ)) := do
  ensure (fields.all fun f => environments.contains f.1)
    (.validation "Environment counts contain an unknown environment")
  match fields.mapM fun f => (count? f.2).map fun count => (f.1, count) with
  | none => .error (.validation "Environment counts must be non-negative integers")
  | some counts => .ok counts

/-- One entry of `integer_bounds`. -/
def bounded (value minimum maximum : ℤ) (field : String) : Except Exc Unit :=
  ensure (minimum ≤ value && value ≤ maximum)
    (.validation (field ++ " is outside the safe bound"))

/-- The checks on the execution policy and the number of targets. -/
def validatePolicyColumns (counts : List (String × ℤ)) : Except Exc Unit := do
  bounded op.maximumTargets 1 1000 "maximum_targets"
  bounded op.canarySize 1 100 "canary_size"
  bounded op.globalConcurrency 1 256 "global_concurrency"
  bounded op.perAgentConcurrency 1 64 "per_agent_concurrency"
  bounded op.perBenchConcurrency 1 32 "per_bench_concurrency"
  bounded op.maximumFailures 0 1000 "maximum_failures"
  ensure (1 ≤ op.totalTargets && op.totalTargets ≤ op.maximumTargets)
    (.validation "Bulk target count exceeds policy")
  ensure ((counts.map (·.2)).sum == op.totalTargets)
    (.validation "Environment counts must equal total targets")
  ensure (op.canarySize ≤ op.totalTargets) (.validation "Canary size exceeds total targets")
  ensure (op.perAgentConcurrency ≤ op.globalConcurrency)
    (.validation "Agent concurrency exceeds global concurrency")
  ensure (op.perBenchConcurrency ≤ op.perAgentConcurrency)
    (.validation "Bench concurrency exceeds agent concurrency")
  ensure (0 ≤ op.maximumFailureRatio && op.maximumFailureRatio ≤ 1)
    (.validation "Maximum failure ratio is invalid")

/-- `_COUNT_FIELDS` -/
def counters : List ℤ :=
  [op.plannedCount, op.queuedCount, op.runningCount, op.succeededCount, op.failedCount,
    op.cancelledCount, op.needsInterventionCount]

/-- The checks on the counters, the approvals, and who asked for a pause or a cancellation. -/
def validateProgress : Except Exc Unit := do
  ensure ((counters op).all (0 ≤ ·))
    (.validation "Bulk aggregate counts must be non-negative integers")
  ensure ((counters op).sum == op.totalTargets)
    (.validation "Bulk aggregate counts must equal total targets")
  ensure (1 ≤ op.requiredApprovals) (.permission "Bulk operations require approval")
  ensure (0 ≤ op.approvalCount && op.approvalCount ≤ op.requiredApprovals)
    (.validation "Bulk approval count is invalid")
  ensure (!(op.approvalStatus == .approved && op.approvalCount < op.requiredApprovals))
    (.permission "Bulk approval threshold is not satisfied")
  ensure (!op.pauseRequested || (truthy op.pauseRequestedBy && op.pauseRequestedAt.isSome))
    (.validation "Bulk pause attribution is incomplete")
  ensure (!op.cancelRequested || (truthy op.cancelRequestedBy && op.cancelRequestedAt.isSome))
    (.validation "Bulk cancellation attribution is incomplete")

/-- A cancellation stays requested, by whom and when it was. -/
def validateCancellation (previous : BulkOperation) : Except Exc Unit :=
  ensure (!previous.cancelRequested
      || (op.cancelRequested && previous.cancelRequestedBy == op.cancelRequestedBy
        && previous.cancelRequestedAt == op.cancelRequestedAt))
    (.validation "Bulk cancellation request is immutable")

/-- The pattern is the operation type, or ends in `*` and is otherwise its start. -/
def patternAllows (pattern operationType : String) : Bool :=
  pattern == operationType
    || (endsWith pattern "*"
      && (pattern.toList.dropLast).isPrefixOf operationType.toList)

/-- The approval policy authorizes the snapshot. -/
def authorizedBy (policy : ApprovalPolicy) (counts : List (String × ℤ)) : Bool :=
  policy.enabled && patternAllows policy.operationPattern op.operationType
    && (policy.environment == "any"
      || counts.all fun c => c.1 == policy.environment || c.2 == 0)
    && policy.minimumApprovals == op.requiredApprovals
    && policy.bulkThreshold ≤ op.totalTargets && op.totalTargets ≤ policy.maximumTargets
    && op.maximumTargets ≤ policy.maximumTargets
    && !(isDataUpdate op.operationType && policy.requireBackup)

/-- The check on the approval policy. -/
def validatePolicy (counts : List (String × ℤ)) (db : Database) : Except Exc Unit :=
  ensure (((Table.get? db.policies op.approvalPolicy).map fun policy =>
    authorizedBy op policy counts).getD false)
    (.permission "Bulk approval policy does not authorize this snapshot")

/-- `_IMMUTABLE`, and the transition of the state. -/
def validatePrevious (previous : BulkOperation) : Except Exc Unit := do
  immutableField previous.bulkOperationId op.bulkOperationId "bulk_operation_id"
  immutableField previous.retryOf op.retryOf "retry_of"
  immutableField previous.idempotencyKey op.idempotencyKey "idempotency_key"
  immutableField previous.operationType op.operationType "operation_type"
  immutableField previous.payloadJson op.payloadJson "payload_json"
  immutableField previous.payloadHash op.payloadHash "payload_hash"
  immutableField previous.selectorJson op.selectorJson "selector_json"
  immutableField previous.selectorHash op.selectorHash "selector_hash"
  immutableField previous.snapshotHash op.snapshotHash "snapshot_hash"
  immutableField previous.dryRunHash op.dryRunHash "dry_run_hash"
  immutableField previous.environmentCountsJson op.environmentCountsJson "environment_counts_json"
  immutableField previous.requestedBy op.requestedBy "requested_by"
  immutableField previous.approvalPolicy op.approvalPolicy "approval_policy"
  immutableField previous.requiredApprovals op.requiredApprovals "required_approvals"
  immutableField previous.maximumTargets op.maximumTargets "maximum_targets"
  immutableField previous.canarySize op.canarySize "canary_size"
  immutableField previous.globalConcurrency op.globalConcurrency "global_concurrency"
  immutableField previous.perAgentConcurrency op.perAgentConcurrency "per_agent_concurrency"
  immutableField previous.perBenchConcurrency op.perBenchConcurrency "per_bench_concurrency"
  immutableField previous.maximumFailures op.maximumFailures "maximum_failures"
  immutableField previous.maximumFailureRatio op.maximumFailureRatio "maximum_failure_ratio"
  immutableField previous.totalTargets op.totalTargets "total_targets"
  immutableField previous.requestedAt op.requestedAt "requested_at"
  immutableField previous.previewedAt op.previewedAt "previewed_at"
  legalTransition BulkState.transitions .illegalBulkTransition previous.state op.state

/-- `BulkOperation.validate` -/
def validate (previous : Option BulkOperation) (db : Database) : Except Exc Unit := do
  validateIdentity R op
  validateRetryParent op previous.isNone db
  let fields ← validateJsonColumns R op
  let counts ← environmentCounts fields
  validatePolicyColumns op counts
  validateProgress op
  ifSome previous (validateCancellation op)
  validatePolicy op counts db
  ifSome previous (validatePrevious op)

end BulkOperation

/-- `bulk_operation.save()` of a document read earlier. -/
def saveBulkOperation (op : BulkOperation) : EStateM Exc Session Unit := do
  let previous ← readForUpdate fun db =>
    match db.bulkOperation? op.name with
    | none => .error (.doesNotExist "Bulk Operation")
    | some previous => .ok previous
  read fun db => validate R op (some previous) db
  write fun db => db.setBulkOperation op.name fun _ => op

/-! ## `BulkOperationTarget` -/

section BulkOperationTarget

variable (t : BulkOperationTarget)

/-- One of the four texts of the snapshot. -/
def snapshotText (value field : String) : Except Exc Unit :=
  ensure (value != "") (.validation (field ++ " is invalid"))

/-- The checks of the row's own columns. -/
def validateTargetColumns : Except Exc Unit := do
  ensure (0 ≤ t.ordinal) (.validation "Bulk target ordinal is invalid")
  ensure (0 ≤ t.wave) (.validation "Bulk target wave is invalid")
  ensure (0 ≤ t.attempt) (.validation "Bulk target attempt is invalid")
  snapshotText t.agentIdSnapshot "agent_id_snapshot"
  snapshotText t.benchIdSnapshot "bench_id_snapshot"
  snapshotText t.siteIdSnapshot "site_id_snapshot"
  snapshotText t.siteDomainSnapshot "site_domain_snapshot"
  requireSha256 (some t.inventoryRevision) "inventory_revision"
  ensure (truthy t.previewOperation == truthy t.previewResultHash)
    (.validation "Bulk target preview lineage is incomplete")
  ifSome (orNone t.previewResultHash) fun hash => requireSha256 (some hash) "preview_result_hash"
  ensure (t.targetKey == Bulk.targetKeyOf t.agentIdSnapshot t.benchIdSnapshot t.siteIdSnapshot)
    (.validation "Bulk target key does not match its snapshot")

/-- The checks on the place of the target in its parent's plan. -/
def validatePlace (parent : BulkOperation) : Except Exc Unit :=
  ensure (t.wave == if t.ordinal < parent.canarySize then 0 else 1)
    (.validation "Bulk target wave differs from canary policy")

/-- The snapshot names the rows the target is linked to. -/
def snapshotMatches (db : Database) : Bool :=
  (Table.get? db.agents t.serverAgent).map (·.agentId) == some t.agentIdSnapshot
    && (Table.get? db.benches t.bench).map (·.benchId) == some t.benchIdSnapshot
    && ((Table.get? db.sites t.managedSite).map fun site =>
        (site.siteId, site.domain, site.environment))
      == some (t.siteIdSnapshot, t.siteDomainSnapshot, t.environmentSnapshot)

/-- The checks on the rows the target is linked to. -/
def validateOwnership (db : Database) : Except Exc Unit := do
  requireLinkValue db.benches (some t.bench) (·.serverAgent) t.serverAgent
  requireLinkValue db.sites (some t.managedSite) (·.serverAgent) t.serverAgent
  requireLinkValue db.sites (some t.managedSite) (·.bench) t.bench
  ensure (snapshotMatches t db)
    (.validation "Bulk target snapshot differs from inventory ownership")

/-- The preview is the succeeded dry run of the parent's command on the target. -/
def previewEvidence (parent : BulkOperation) (preview : ControllerOperation)
    (previewTarget : OperationTarget) : Bool :=
  match OperationDocuments.applied? R preview.payloadJson, R.loads parent.payloadJson with
  | some (payload, expectedApply), some parentPayload =>
    preview.operationType == parent.operationType && preview.serverAgent == t.serverAgent
      && preview.bench == t.bench && preview.managedSite == some t.managedSite
      && preview.requestedBy == parent.requestedBy && preview.state == .succeeded
      && preview.resultHash == t.previewResultHash
      && previewTarget.inventoryRevisionSnapshot == some t.inventoryRevision
      && (match Json.get payload "dry_run" with | .bool dryRun => dryRun | _ => false)
      && Json.pyEq expectedApply parentPayload
  | _, _ => false

/-- The checks on the preview of a data update. -/
def validateTargetPreview (parent : BulkOperation) (db : Database) : Except Exc Unit :=
  match orNone t.previewOperation with
  | none => ensure (!isDataUpdate parent.operationType)
      (.permission "Bulk data update requires a successful preview")
  | some preview => do
    ensure (isDataUpdate parent.operationType)
      (.validation "Bulk preview lineage is not supported for this operation")
    ensure (match db.operation? preview, OperationDocuments.targetOf? db preview with
      | some preview, some previewTarget => previewEvidence R t parent preview previewTarget
      | _, _ => false) (.permission "Bulk target preview evidence is invalid")
    ensure (!db.bulkTargets.any fun other =>
        other.previewOperation == some preview && other.name != t.name)
      (.duplicateEntry "A dry-run preview may bind only one bulk target")
    ensure (!db.operations.any fun other =>
        other.previewOf == some preview && other.name != t.childOperation.getD "")
      (.duplicateEntry "A dry-run preview is already bound to an apply operation")

/-- No other row is this attempt at the target, or at its place. -/
def validateAttempt (db : Database) : Except Exc Unit := do
  ensure (!db.bulkTargets.any fun other =>
      other.bulkOperation == t.bulkOperation && other.targetKey == t.targetKey
        && other.attempt == t.attempt && other.name != t.name)
    (.duplicateEntry "Bulk target attempt already exists")
  ensure (!db.bulkTargets.any fun other =>
      other.bulkOperation == t.bulkOperation && other.ordinal == t.ordinal
        && other.attempt == t.attempt && other.name != t.name)
    (.duplicateEntry "Bulk target ordinal attempt already exists")
  ensure (!(t.attempt == 0 && truthy t.retryOf))
    (.validation "Initial bulk target cannot have retry lineage")

/-- `stable`: the columns a retry in another parent keeps. -/
def stableColumns (t : BulkOperationTarget) : List String :=
  [t.serverAgent, t.bench, t.managedSite, t.agentIdSnapshot, t.benchIdSnapshot, t.siteIdSnapshot,
    t.siteDomainSnapshot, t.environmentSnapshot]

/-- A target that failed with a child. -/
def failedWithChild (source : BulkOperationTarget) : Bool :=
  Bulk.failureState source.state && truthy source.childOperation

/-- The checks on the target of another parent that is retried. -/
def validateRetrySource (parent : BulkOperation) (db : Database) : Except Exc Unit :=
  match orNone t.retrySource with
  | none => ensure (!truthy parent.retryOf)
      (.validation "Every retry parent target requires source lineage")
  | some source =>
    match db.bulkTarget? source with
    | none => .error (.validation "Bulk retry source is invalid")
    | some source => do
      ensure (some source.bulkOperation == parent.retryOf && source.targetKey == t.targetKey
          && failedWithChild source) (.validation "Bulk retry source is invalid")
      ensure (stableColumns source == stableColumns t)
        (.validation "Bulk retry changed stable target ownership")

/-- `immutable_snapshot`: the columns another attempt in the same parent keeps. -/
def snapshotColumns (t : BulkOperationTarget) :
    ℤ × ℤ × List String × String × Option String × Option String :=
  (t.ordinal, t.wave, stableColumns t, t.inventoryRevision, t.previewOperation,
    t.previewResultHash)

/-- The checks on the attempt before this one. -/
def validateRetryOf (db : Database) : Except Exc Unit :=
  if t.attempt ≤ 0 then .ok ()
  else
    match t.retryOf.bind db.bulkTarget? with
    | none => .error (.validation "Bulk retry lineage is invalid")
    | some previous => do
      ensure (previous.bulkOperation == t.bulkOperation && previous.targetKey == t.targetKey
          && previous.attempt + 1 == t.attempt && failedWithChild previous)
        (.validation "Bulk retry lineage is invalid")
      ensure (snapshotColumns previous == snapshotColumns t)
        (.validation "Bulk retry changed the immutable target snapshot")

/-- The child of the target this one retries. -/
def previousChild (db : Database) : Option String :=
  (((orNone t.retryOf).orElse fun _ => orNone t.retrySource).bind db.bulkTarget?).bind
    (·.childOperation)

/-- The checks on the child. -/
def validateChild (db : Database) : Except Exc Unit :=
  ifSome (orNone t.childOperation) fun child =>
    ensure (((db.operation? child).map fun child =>
        child.bulkParent == some t.bulkOperation && child.bulkTarget == some t.name
          && child.retryOf == previousChild t db && child.serverAgent == t.serverAgent
          && child.bench == t.bench && child.managedSite == some t.managedSite).getD false)
      (.validation "Bulk target child operation linkage is invalid")

/-- The operation cancels the target's child, for the user who asked for it. -/
def cancels (parent : BulkOperation) (cancellation : ControllerOperation) : Bool :=
  cancellation.operationType == "operation.cancel" && cancellation.serverAgent == t.serverAgent
    && cancellation.bench == t.bench && cancellation.managedSite == some t.managedSite
    && some cancellation.requestedBy == parent.cancelRequestedBy
    && (match R.loads cancellation.payloadJson with
      | none => false
      | some payload => Json.pyEq payload
          (.obj [("target_operation_id", Json.ofOption t.childOperation)]))

/-- The checks on the cancellation. -/
def validateCancellationOperation (parent : BulkOperation) (db : Database) : Except Exc Unit :=
  ifSome (orNone t.cancellationOperation) fun cancellation =>
    ensure (((db.operation? cancellation).map (cancels R t parent)).getD false)
      (.validation "Bulk target cancellation linkage is invalid")

/-- The links that are fixed once they are made. -/
def validateLinks (previous : BulkOperationTarget) : Except Exc Unit := do
  ensure (!truthy previous.childOperation || previous.childOperation == t.childOperation)
    (.validation "child_operation is immutable once linked")
  ensure (!truthy previous.cancellationOperation
      || previous.cancellationOperation == t.cancellationOperation)
    (.validation "cancellation_operation is immutable once linked")

/-- `_IMMUTABLE`, and the transition of the state. -/
def validatePreviousTarget (previous : BulkOperationTarget) : Except Exc Unit := do
  immutableField previous.bulkOperation t.bulkOperation "bulk_operation"
  immutableField previous.targetKey t.targetKey "target_key"
  immutableField previous.ordinal t.ordinal "ordinal"
  immutableField previous.wave t.wave "wave"
  immutableField previous.attempt t.attempt "attempt"
  immutableField previous.serverAgent t.serverAgent "server_agent"
  immutableField previous.bench t.bench "bench"
  immutableField previous.managedSite t.managedSite "managed_site"
  immutableField previous.agentIdSnapshot t.agentIdSnapshot "agent_id_snapshot"
  immutableField previous.benchIdSnapshot t.benchIdSnapshot "bench_id_snapshot"
  immutableField previous.siteIdSnapshot t.siteIdSnapshot "site_id_snapshot"
  immutableField previous.siteDomainSnapshot t.siteDomainSnapshot "site_domain_snapshot"
  immutableField previous.environmentSnapshot t.environmentSnapshot "environment_snapshot"
  immutableField previous.inventoryRevision t.inventoryRevision "inventory_revision"
  immutableField previous.previewOperation t.previewOperation "preview_operation"
  immutableField previous.previewResultHash t.previewResultHash "preview_result_hash"
  immutableField previous.retrySource t.retrySource "retry_source"
  immutableField previous.retryOf t.retryOf "retry_of"
  legalTransition BulkTargetState.transitions .illegalBulkTargetTransition previous.state t.state

/-- The parent of the target, if the target's ordinal is one of its plan's. -/
def targetParent (db : Database) : Except Exc BulkOperation :=
  match db.bulkOperation? t.bulkOperation with
  | none => .error (.validation "Bulk target ordinal exceeds its parent snapshot")
  | some parent =>
    if t.ordinal < parent.totalTargets then .ok parent
    else .error (.validation "Bulk target ordinal exceeds its parent snapshot")

/-- `BulkOperationTarget.validate` -/
def validateTarget (previous : Option BulkOperationTarget) (db : Database) : Except Exc Unit := do
  validateTargetColumns t
  let parent ← targetParent t db
  validatePlace t parent
  validateOwnership t db
  validateTargetPreview R t parent db
  validateAttempt t db
  validateRetrySource t parent db
  validateRetryOf t db
  validateChild t db
  validateCancellationOperation R t parent db
  ifSome previous (validateLinks t)
  requireOptionalJson R (t.resultJson.filter (· ≠ [])) "result_json"
  ifSome previous (validatePreviousTarget t)

/-- The unique columns of a saved target are its own. -/
def freeTargetLinks (db : Database) : Bool :=
  !db.bulkTargets.any fun other =>
    other.name != t.name
      && ((t.childOperation.isSome && other.childOperation == t.childOperation)
        || (t.cancellationOperation.isSome
          && other.cancellationOperation == t.cancellationOperation))

end BulkOperationTarget

/-- `bulk_target.save()` of a document read earlier. -/
def saveBulkTarget (t : BulkOperationTarget) : EStateM Exc Session Unit := do
  let previous ← readForUpdate fun db =>
    match db.bulkTarget? t.name with
    | none => .error (.doesNotExist "Bulk Operation Target")
    | some previous => .ok previous
  read fun db => validateTarget R t (some previous) db
  readForUpdate fun db => ensure (freeTargetLinks t db) (.duplicateEntry t.name)
  write fun db => db.setBulkTarget t.name fun _ => t

end BulkDocuments

end FrappeController
