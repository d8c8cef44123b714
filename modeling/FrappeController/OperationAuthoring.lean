import FrappeController.Approvals
import FrappeController.OperationDocuments

/-!
# `operation_service.py`, `frappe_operation_service.py`: authoring of single operations

The service resolves the target and the approval policy of a request and derives the immutable
operation; the repository inserts it with its target, or finds that it was inserted before.
-/

namespace FrappeController
namespace OperationAuthoring

open FrappeInventory (Session read write)
open OperationDocuments

/-- `OperationAuthoringError(message)` -/
def refused (message : String) : Exc := .operationAuthoring message

/-! ## Targets -/

structure TargetSnapshot where
  serverAgent : String
  agentId : String
  bench : String
  benchId : String
  managedSite : Option String
  siteDomain : Option String
  environment : String
  inventoryRevision : String
  capabilities : List String
  agentEnabled : Bool
  siteActive : Bool
  deriving DecidableEq, Repr

/-- `TargetSnapshot.__post_init__` -/
def TargetSnapshot.postInit (t : TargetSnapshot) : Except Exc TargetSnapshot := do
  ensure (t.serverAgent != "" && t.agentId != "" && t.bench != "" && t.benchId != "")
    (refused "target identity is incomplete")
  ensure (environments.contains t.environment) (refused "target environment is invalid")
  ensure (isSha256 t.inventoryRevision) (refused "target inventory revision is invalid")
  ensure (t.managedSite.isSome == t.siteDomain.isSome)
    (refused "site identity must be complete or absent")
  return t

variable (R : Runtime)

/-- `_json_string_set` -/
def jsonStringSet (raw : Option Text) (field : String) : Except Exc (List String) :=
  match R.loads ((raw.filter (· ≠ [])).getD "[]".toList) with
  | some (.arr items) =>
    let texts := items.filterMap Json.str?
    if items.length ≤ 256 ∧ texts.length = items.length ∧ "" ∉ texts ∧ texts.Nodup then .ok texts
    else .error (refused ("target " ++ field ++ " is invalid"))
  | _ => .error (refused ("target " ++ field ++ " is invalid"))

/-- The site of a target, if it names one. -/
def resolveSite (db : Database) (agent : ServerAgent) (serverAgent bench : String)
    (managedSite : Option String) : Except Exc (Option ManagedSite) :=
  match managedSite with
  | none => .ok none
  | some name =>
    match Table.get? db.sites name with
    | none => .error (refused "site ownership is inconsistent")
    | some site => do
      ensure (site.serverAgent == serverAgent && site.bench == bench
          && site.environment == agent.environment)
        (refused "site ownership is inconsistent")
      return some site

/-- `resolve_target` -/
def resolveTarget (db : Database) (serverAgent bench : String) (managedSite : Option String) :
    Except Exc TargetSnapshot :=
  match Table.get? db.agents serverAgent, Table.get? db.benches bench with
  | some agent, some benchRow => do
    ensure (benchRow.serverAgent == serverAgent) (refused "unknown operation target")
    ensure (benchRow.environment == agent.environment)
      (refused "target environment ownership is inconsistent")
    let agentCaps ← jsonStringSet R agent.capabilitiesJson "agent capabilities"
    let benchCaps ← jsonStringSet R benchRow.capabilitiesJson "bench capabilities"
    let site ← resolveSite db agent serverAgent bench managedSite
    TargetSnapshot.postInit {
      serverAgent := agent.name, agentId := agent.agentId, bench := benchRow.name
      benchId := benchRow.benchId, managedSite := site.map (·.name)
      siteDomain := site.map (·.domain), environment := agent.environment
      inventoryRevision := agent.inventoryDigest.getD ""
      capabilities := agentCaps.filter benchCaps.contains
      agentEnabled := agent.enabled && agent.status != .disabled && benchRow.enabled
      siteActive := (site.map fun s => s.status == .active || s.status == .maintenance).getD true }
  | _, _ => .error (refused "unknown operation target")

/-! ## Approval rules -/

structure ApprovalRule where
  name : String
  environment : String
  operationPattern : String
  minimumApprovals : ℤ
  requireBackup : Bool
  enabled : Bool
  deriving DecidableEq, Repr

/-- `[a-z][a-z0-9_.-]*` -/
def isPattern (pattern : List Char) : Bool :=
  match pattern with
  | [] => false
  | first :: rest => Ingestion.isLower first && rest.all fun c =>
    Ingestion.isLower c || Ingestion.isDigit c || ['_', '.', '-'].contains c

/-- The pattern without its `.*`, where it ends in it. -/
def wildcard? (pattern : String) : Option (List Char) :=
  if endsWith pattern ".*" then some (pattern.toList.take (pattern.length - 2)) else none

/-- `ApprovalRule.__post_init__` -/
def ApprovalRule.postInit (rule : ApprovalRule) : Except Exc ApprovalRule := do
  ensure (rule.name != "" && ("any" :: environments).contains rule.environment)
    (refused "approval rule identity is invalid")
  ensure (decide (1 ≤ rule.minimumApprovals)) (refused "approval rule threshold is invalid")
  ensure (isPattern ((wildcard? rule.operationPattern).getD rule.operationPattern.toList))
    (refused "approval operation pattern is invalid")
  return rule

/-- `ApprovalRule.matches` -/
def ApprovalRule.isFor (rule : ApprovalRule) (environment operation : String) : Bool :=
  rule.enabled && (rule.environment == "any" || rule.environment == environment)
    && match wildcard? rule.operationPattern with
      | some stem => (stem ++ ['.']).isPrefixOf operation.toList
      | none => operation == rule.operationPattern

/-- The rank of a rule among those that match. -/
def ApprovalRule.rank (rule : ApprovalRule) (environment : String) : Bool × Bool × ℕ :=
  (rule.environment == environment, (wildcard? rule.operationPattern).isNone,
    rule.operationPattern.length)

/-- The order of two ranks. -/
def rankLe (a b : Bool × Bool × ℕ) : Bool :=
  (!a.1 && b.1) || (a.1 == b.1 && ((!a.2.1 && b.2.1) || (a.2.1 == b.2.1 && a.2.2 ≤ b.2.2)))

/-- `approval_rules` -/
def approvalRules (db : Database) : Except Exc (List ApprovalRule) :=
  let rows := (db.policies.filter (·.enabled)).insertionSort fun a b => a.name ≤ b.name
  (rows.take 1000).mapM fun row => ApprovalRule.postInit {
    name := row.name, environment := row.environment, operationPattern := row.operationPattern
    minimumApprovals := row.minimumApprovals, requireBackup := row.requireBackup
    enabled := row.enabled }

/-- `select_approval_rule` -/
def selectApprovalRule (rules : List ApprovalRule) (environment operation : String) :
    Except Exc (Option ApprovalRule) :=
  let candidates := (rules.filter (·.isFor environment operation)).insertionSort fun a b =>
    rankLe (b.rank environment) (a.rank environment)
  match candidates with
  | [] => .ok none
  | best :: rest =>
    if rest.any (fun rule => rule.rank environment == best.rank environment) then
      .error (refused "approval policy selection is ambiguous")
    else .ok (some best)

/-! ## Payloads -/

structure PayloadAuthorization where
  normalizedPayload : List (String × Json)
  siteRequired : Bool
  destructive : Bool
  preOperationBackup : Bool
  approvalRequired : Bool := false
  payloadContainsSiteIdentity : Bool := true
  preApprovalPreview : Bool := false

/-- `PayloadValidator` -/
abbrev PayloadValidator : Type := String → List (String × Json) → Except Exc PayloadAuthorization

/-- `_SENSITIVE` -/
def sensitiveMarkers : List String :=
  ["api_key", "credential", "encryption_key", "password", "private_key", "secret", "token"]

mutual

/-- `_has_sensitive_key` -/
def hasSensitiveKey : Json → Bool
  | .obj fields => hasSensitiveField fields
  | .arr items => hasSensitiveItem items
  | _ => false

def hasSensitiveItem : List Json → Bool
  | [] => false
  | x :: xs => hasSensitiveKey x || hasSensitiveItem xs

def hasSensitiveField : List (String × Json) → Bool
  | [] => false
  | (key, x) :: xs =>
    sensitiveMarkers.any (fun marker => containsText marker (dashToUnderscore (R.casefold key)))
      || hasSensitiveKey x || hasSensitiveField xs

end

/-- `_canonical_payload` -/
def canonicalPayload (value : List (String × Json)) : Except Exc (Text × String) := do
  ensure (!hasSensitiveKey R (.obj value))
    (refused "operation payload contains a sensitive field")
  ensure (validateJson R false false (.obj value)).isOk
    (refused "operation payload is not canonical JSON")
  let encoded := R.dumps (.obj value)
  ensure (utf8Length encoded ≤ 256 * 1024) (refused "operation payload exceeds its size limit")
  return (encoded, R.sha256 encoded)

/-! ## `author` -/

structure OperationRequest where
  operationId : String
  operationType : String
  serverAgent : String
  bench : String
  managedSite : Option String
  payload : List (String × Json)
  previewOf : Option String := none
  previewResultHash : Option String := none
  retryOf : Option String := none

structure AuthoredOperation where
  operationId : String
  idempotencyKey : String
  protocolVersion : String
  serverAgent : String
  agentId : String
  bench : String
  benchId : String
  managedSite : Option String
  siteDomain : Option String
  operationType : String
  payloadJson : Text
  payloadHash : String
  requestedBy : String
  approvalPolicy : Option String
  approvalStatus : ApprovalStatus
  requiredApprovals : ℤ
  state : OperationState
  inventoryRevision : String
  targetKey : String
  previewOf : Option String
  previewResultHash : Option String
  retryOf : Option String
  deriving DecidableEq, Repr

/-- The UUID of a request in canonical form. -/
def operationUuid (operationId : String) : Except Exc String :=
  match R.uuid operationId with
  | none => .error (refused "operation id must be a UUID")
  | some uuid => do
    ensure (uuid == R.lower operationId) (refused "operation id must be canonical")
    return uuid

/-- `[a-z][a-z0-9_.-]{2,127}` -/
def isOperationType (s : String) : Bool :=
  3 ≤ s.length && s.length ≤ 128 && isPattern s.toList

/-- The checks of an authorization against the target. -/
def checkAuthorization (target : TargetSnapshot) (authorization : PayloadAuthorization) :
    Except Exc Unit := do
  ensure (!(authorization.preApprovalPreview
      && (authorization.destructive || authorization.approvalRequired)))
    (refused "pre-approval preview contract is invalid")
  ensure (authorization.siteRequired == target.managedSite.isSome)
    (refused "operation target kind does not match payload contract")
  ensure (!authorization.payloadContainsSiteIdentity || match target.siteDomain with
      | none => true
      | some domain => Json.pyEq (Json.get authorization.normalizedPayload "domain") (.str domain))
    (refused "payload site does not match target snapshot")
  ensure (authorization.preOperationBackup || !authorization.destructive)
    (refused "destructive operation requires a pre-operation backup")

/-- The approval policy of an operation. -/
def selectPolicy (db : Database) (target : TargetSnapshot) (operationType : String)
    (authorization : PayloadAuthorization) : Except Exc (Option ApprovalRule) := do
  let policy ← if authorization.preApprovalPreview then pure none
    else do selectApprovalRule (← approvalRules db) target.environment operationType
  ensure (!(authorization.destructive || authorization.approvalRequired) || policy.isSome)
    (refused "operation requires an approval policy")
  ensure (!(target.environment == "production" && policy.isNone
      && !authorization.preApprovalPreview))
    (refused "production operation has no approval policy")
  ensure (!(policy.any (·.requireBackup) && !authorization.preOperationBackup))
    (refused "approval policy requires a pre-operation backup")
  return policy

/-- The preview a request names, in canonical form. -/
def previewLineage (request : OperationRequest) : Except Exc (Option String) := do
  ensure (request.previewOf.isSome == request.previewResultHash.isSome)
    (refused "preview lineage is incomplete")
  ensure (request.previewOf.isNone || isDataUpdate request.operationType)
    (refused "preview lineage is only valid for data updates")
  match request.previewOf with
  | none => return none
  | some preview =>
    match R.uuid preview with
    | none => .error (refused "preview operation id must be a UUID")
    | some uuid => do
      ensure (uuid == R.lower preview && isSha256 (request.previewResultHash.getD ""))
        (refused "preview lineage is invalid")
      return some uuid

/-- The target key of an operation. -/
def targetKey (uuid : String) (target : TargetSnapshot) : String :=
  R.sha256 (R.dumps (.arr [.str uuid, .str target.agentId, .str target.benchId,
    Json.ofOption target.managedSite, .str target.inventoryRevision]))

/-- The operation `author` derives from a request. -/
def authored (validator : PayloadValidator) (request : OperationRequest) (actor : String)
    (db : Database) : Except Exc AuthoredOperation := do
  ensure (actor != "") (refused "authenticated actor is required")
  let uuid ← operationUuid R request.operationId
  ensure (isOperationType request.operationType) (refused "operation type is invalid")
  let target ← resolveTarget R db request.serverAgent request.bench request.managedSite
  ensure (target.agentEnabled && !(target.managedSite.isSome && !target.siteActive))
    (refused "operation target is inactive")
  ensure (target.capabilities.contains request.operationType)
    (refused "operation is not supported by the target")
  let authorization ← validator request.operationType request.payload
  checkAuthorization target authorization
  let policy ← selectPolicy db target request.operationType authorization
  let (payloadJson, payloadHash) ← canonicalPayload R authorization.normalizedPayload
  let previewOf ← previewLineage R request
  let required := (policy.map (·.minimumApprovals)).getD 0
  return {
    operationId := uuid, idempotencyKey := "controller:" ++ uuid, protocolVersion := "1.0"
    serverAgent := target.serverAgent, agentId := target.agentId, bench := target.bench
    benchId := target.benchId, managedSite := target.managedSite
    siteDomain := target.siteDomain, operationType := request.operationType, payloadJson
    payloadHash, requestedBy := actor, approvalPolicy := policy.map (·.name)
    approvalStatus := if required = 0 then .notRequired else .pending
    requiredApprovals := required, state := .awaitingApproval
    inventoryRevision := target.inventoryRevision, targetKey := targetKey R uuid target, previewOf
    previewResultHash := request.previewResultHash, retryOf := request.retryOf }

/-! ## `create` -/

/-- The values of an insertion that its request does not determine. -/
structure Insertion where
  /-- The name the target gets, of `autoname: hash`. -/
  targetName : String
  now : DateTime

/-- The operation document of an authored operation. -/
def operationDocument (authored : AuthoredOperation) (now : DateTime) : ControllerOperation where
  name := authored.operationId
  operationId := authored.operationId
  idempotencyKey := authored.idempotencyKey
  protocolVersion := authored.protocolVersion
  serverAgent := authored.serverAgent
  bench := authored.bench
  managedSite := authored.managedSite
  bulkParent := none
  bulkTarget := none
  retryOf := authored.retryOf
  previewOf := authored.previewOf
  previewResultHash := authored.previewResultHash
  operationType := authored.operationType
  payloadJson := authored.payloadJson
  payloadHash := authored.payloadHash
  requestedBy := authored.requestedBy
  approvalPolicy := authored.approvalPolicy
  approvalStatus := authored.approvalStatus
  requiredApprovals := authored.requiredApprovals
  approvalCount := 0
  state := authored.state
  commandJson := none
  commandHash := none
  issuedAt := none
  expiresAt := none
  leaseExpiresAt := none
  lastEventSequence := 0
  resultJson := none
  resultHash := none
  credentialReceivedAt := none
  errorCode := none
  startedAt := none
  completedAt := none
  creation := now

/-- The name of the target of the operation that is retried. -/
def retriedTarget (retryOf : Option String) (db : Database) : Option String :=
  (orNone retryOf).bind fun source => (targetOf? db source).map (·.name)

/-- The target document of an authored operation. -/
def targetDocument (authored : AuthoredOperation) (name : String) (db : Database) :
    OperationTarget where
  name := name
  operation := authored.operationId
  targetKey := authored.targetKey
  serverAgent := authored.serverAgent
  bench := authored.bench
  managedSite := authored.managedSite
  bulkParent := none
  bulkTarget := none
  retryOf := retriedTarget authored.retryOf db
  siteDomainSnapshot := authored.siteDomain
  operationTypeSnapshot := authored.operationType
  payloadHashSnapshot := authored.payloadHash
  inventoryRevisionSnapshot := some authored.inventoryRevision
  state := authored.state
  attempt := 0
  resultJson := none
  errorCode := none

/-- The row has the columns `_existing_is_identical` compares. -/
def sameOperation (authored : AuthoredOperation) (op : ControllerOperation) : Bool :=
  op.operationId == authored.operationId && op.idempotencyKey == authored.idempotencyKey
    && op.protocolVersion == authored.protocolVersion && op.serverAgent == authored.serverAgent
    && op.bench == authored.bench && op.managedSite == authored.managedSite
    && op.operationType == authored.operationType && op.payloadJson == authored.payloadJson
    && op.payloadHash == authored.payloadHash && op.requestedBy == authored.requestedBy
    && op.approvalPolicy == authored.approvalPolicy
    && op.requiredApprovals == authored.requiredApprovals && op.previewOf == authored.previewOf
    && op.previewResultHash == authored.previewResultHash && op.retryOf == authored.retryOf

/-- The target row has the columns `_existing_is_identical` compares. -/
def sameTarget (authored : AuthoredOperation) (db : Database) (t : OperationTarget) : Bool :=
  t.targetKey == authored.targetKey && t.serverAgent == authored.serverAgent
    && t.bench == authored.bench && t.managedSite == authored.managedSite
    && t.siteDomainSnapshot == authored.siteDomain
    && t.operationTypeSnapshot == authored.operationType
    && t.payloadHashSnapshot == authored.payloadHash
    && t.inventoryRevisionSnapshot == some authored.inventoryRevision
    && t.retryOf == retriedTarget authored.retryOf db

/-- `_existing_is_identical`, for an operation that exists. -/
def existingIsIdentical (authored : AuthoredOperation) (op : ControllerOperation) (db : Database) :
    Except Exc Unit := do
  ensure (sameOperation authored op)
    (refused "operation id is already bound to different data")
  ensure (((targetOf? db authored.operationId).map (sameTarget authored db)).getD false)
    (refused "operation target is already bound to different data")

/-- `create` of the user `user`. -/
def create (user : String) (authored : AuthoredOperation) (insertion : Insertion) :
    EStateM Exc Session Unit := do
  match ← read fun db => .ok (db.operation? authored.operationId) with
  | some op => read (existingIsIdentical authored op)
  | none => do
    insertOperation R user (truthy authored.retryOf) (operationDocument authored insertion.now)
    let t ← read fun db => .ok (targetDocument authored insertion.targetName db)
    insertTarget t

/-- `author` -/
def author (validator : PayloadValidator) (request : OperationRequest) (actor : String)
    (insertion : Insertion) : EStateM Exc Session AuthoredOperation := do
  let authored ← read (authored R validator request actor)
  create R actor authored insertion
  return authored

end OperationAuthoring

end FrappeController
