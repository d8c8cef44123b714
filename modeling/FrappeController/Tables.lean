import FrappeController.Library.Table
import FrappeController.Library.Transaction
import FrappeController.Python

/-!
# The controller's tables

The columns the modelled functions read or write, under the field names of the DocType
definitions. A column that may be NULL is an `Option`; a JSON column is its text; a link
is the name of the row it points to. `Database` is one committed (or in-progress) state
of all tables, together with the two things a request reads beside them: the roles of
the users and the deployment's feature file.
-/

namespace FrappeController

/-! ## States -/

/-- `Controller Operation.state` and `Operation Target.state`. -/
inductive OperationState where
  | awaitingApproval | queued | leased | running
  | succeeded | failed | cancelled | timedOut | needsIntervention | deadLetter | rejected
  deriving DecidableEq, Repr

namespace OperationState

def text : OperationState → String
  | .awaitingApproval => "awaiting_approval"
  | .queued => "queued"
  | .leased => "leased"
  | .running => "running"
  | .succeeded => "succeeded"
  | .failed => "failed"
  | .cancelled => "cancelled"
  | .timedOut => "timed_out"
  | .needsIntervention => "needs_intervention"
  | .deadLetter => "dead_letter"
  | .rejected => "rejected"

def all : List OperationState :=
  [.awaitingApproval, .queued, .leased, .running, .succeeded, .failed, .cancelled, .timedOut,
    .needsIntervention, .deadLetter, .rejected]

/-- The state a text names. -/
def ofText? (s : String) : Option OperationState := all.find? fun state => state.text == s

/-- `_TERMINAL` -/
def terminal : OperationState → Bool
  | .awaitingApproval | .queued | .leased | .running => false
  | _ => true

theorem ofText?_text (state : OperationState) : ofText? state.text = some state := by
  cases state <;> decide

theorem ofText?_eq_some {s : String} {state : OperationState} (h : ofText? s = some state) :
    state.text = s := by
  simpa using List.find?_some h

end OperationState

/-- `Bulk Operation Target.state`: planned, or the state of the child operation. -/
inductive BulkTargetState where
  | planned
  | child (state : OperationState)
  deriving DecidableEq, Repr

/-- `_TERMINAL_STATES` -/
def BulkTargetState.terminal : BulkTargetState → Bool
  | .planned => false
  | .child state => state.terminal

/-- `Bulk Operation.state`; `partlySucceeded` is the state `partial`. -/
inductive BulkState where
  | draft | previewed | awaitingApproval | approved | canary | running | paused | cancelling
  | succeeded | partlySucceeded | failed | cancelled | needsIntervention | rejected
  deriving DecidableEq, Repr

/-- `Server Agent.status` -/
inductive AgentStatus where
  | enrolling | offline | online | disabled
  deriving DecidableEq, Repr

/-- `Server Agent.reported_status`, the health a heartbeat reports. -/
inductive ReportedStatus where
  | ready | degraded | error | maintenance
  deriving DecidableEq, Repr

/-- `Server Agent.upgrade_state` -/
inductive UpgradeState where
  | none | planned | draining | readyToDeploy | verifying | succeeded
  | rollbackRequired | rollbackVerifying | rolledBack | cancelled
  deriving DecidableEq, Repr

/-- `Bench.health_status` and `Managed Site.health_status`. -/
inductive HealthStatus where
  | unknown | healthy | degraded | unreachable
  deriving DecidableEq, Repr

/-- `Managed Site.status` -/
inductive SiteStatus where
  | unknown | provisioning | active | maintenance | disabled | missing | failed
  deriving DecidableEq, Repr

inductive ApprovalStatus where
  | notRequired | pending | approved | rejected
  deriving DecidableEq, Repr

inductive Decision where
  | approved | rejected
  deriving DecidableEq, Repr

def Decision.text : Decision → String
  | .approved => "approved"
  | .rejected => "rejected"

/-! ## Rows -/

/-- A column with a default has the value of a newly created document. -/
structure ServerAgent where
  name : String
  agentId : String
  environment : String
  enabled : Bool
  audience : String
  drainRequested : Bool
  inventoryDigest : Option String
  publicIp : Option String := none
  status : AgentStatus := .enrolling
  protocolVersion : String := "1.0"
  agentVersion : Option String := none
  allowedSiteSuffixesJson : Option Text := none
  allowedOperationsJson : Option Text := none
  setupRequiredAppsJson : Option Text := none
  drainRequestedBy : Option String := none
  drainRequestedAt : Option DateTime := none
  upgradeState : UpgradeState := .none
  desiredAgentVersion : Option String := none
  desiredImageDigest : Option String := none
  previousAgentVersion : Option String := none
  previousImageDigest : Option String := none
  observedImageDigest : Option String := none
  upgradeRequestedBy : Option String := none
  upgradeRequestedAt : Option DateTime := none
  upgradeDeployedAt : Option DateTime := none
  upgradeVerifiedAt : Option DateTime := none
  upgradeFailureCode : Option String := none
  capabilitiesJson : Option Text := none
  reportedStatus : Option ReportedStatus := none
  lastSeen : Option DateTime := none
  inventoryUpdatedAt : Option DateTime := none
  inventoryRevision : ℕ := 0
  inventorySnapshotJson : Option Text := none
  enrollmentTokenHash : Option String := none
  enrollmentExpiresAt : Option DateTime := none
  enrollmentTokenCreatedAt : Option DateTime := none
  enrollmentTokenCreatedBy : Option String := none
  enrollmentConsumedAt : Option DateTime := none
  enrollmentCompletedAt : Option DateTime := none
  expectedPublicKeySha256 : Option String := none
  signingPublicKeyEd25519 : Option String := none
  lastSignedRequestAtNs : Option String := none
  modified : DateTime := ⟨0⟩
  deriving Repr

structure Bench where
  name : String
  benchId : String
  serverAgent : String
  requiredAppsJson : Option Text
  displayName : String := benchId
  environment : String := "production"
  enabled : Bool := true
  frappeVersion : Option String := none
  erpnextVersion : Option String := none
  installedAppsJson : Option Text := none
  capabilitiesJson : Option Text := none
  healthStatus : HealthStatus := .unknown
  inventoryUpdatedAt : Option DateTime := none
  deriving Repr

structure ManagedSite where
  name : String
  siteId : String
  domain : String
  serverAgent : String
  bench : String
  environment : String
  status : SiteStatus := .unknown
  installedAppsJson : Option Text := none
  labelsJson : Option Text := none
  databaseName : Option String := none
  schedulerEnabled : Bool := false
  maintenanceMode : Bool := false
  healthStatus : HealthStatus := .unknown
  inventoryUpdatedAt : Option DateTime := none
  deriving Repr

structure ApprovalPolicy where
  name : String
  enabled : Bool
  environment : String
  operationPattern : String
  minimumApprovals : ℤ
  requireBackup : Bool
  bulkThreshold : ℤ
  maximumTargets : ℤ
  deriving Repr

structure ControllerOperation where
  name : String
  operationId : String
  idempotencyKey : String
  protocolVersion : String
  serverAgent : String
  bench : String
  managedSite : Option String
  bulkParent : Option String
  bulkTarget : Option String
  retryOf : Option String
  previewOf : Option String
  previewResultHash : Option String
  operationType : String
  payloadJson : Text
  payloadHash : String
  requestedBy : String
  approvalPolicy : Option String
  approvalStatus : ApprovalStatus
  requiredApprovals : ℤ
  approvalCount : ℤ
  state : OperationState
  commandJson : Option Text
  commandHash : Option String
  issuedAt : Option DateTime
  expiresAt : Option DateTime
  leaseExpiresAt : Option DateTime
  lastEventSequence : ℕ
  resultJson : Option Text
  resultHash : Option String
  credentialReceivedAt : Option DateTime
  errorCode : Option String
  startedAt : Option DateTime
  completedAt : Option DateTime
  creation : DateTime
  deriving Repr

structure OperationTarget where
  name : String
  operation : String
  targetKey : String
  serverAgent : String
  bench : String
  managedSite : Option String
  bulkParent : Option String
  bulkTarget : Option String
  retryOf : Option String
  siteDomainSnapshot : Option String
  operationTypeSnapshot : String
  payloadHashSnapshot : String
  inventoryRevisionSnapshot : Option String
  state : OperationState
  attempt : ℕ
  resultJson : Option Text
  errorCode : Option String
  deriving Repr

structure OperationApproval where
  name : String
  operation : String
  approvalPolicy : String
  decision : Decision
  approver : String
  decidedAt : DateTime
  comment : String
  payloadHashSnapshot : String
  targetKeySnapshot : String
  previewResultHashSnapshot : Option String
  decisionHash : String
  deriving Repr

structure OperationEvent where
  operation : String
  operationId : String
  sequence : ℕ
  attempt : Option ℕ
  step : Option String
  kind : String
  detailsJson : Option Text
  bodyHash : String
  agentCreatedAt : DateTime
  receivedAt : DateTime
  deriving Repr

structure BulkOperation where
  name : String
  bulkOperationId : String
  retryOf : Option String
  idempotencyKey : String
  operationType : String
  payloadJson : Text
  payloadHash : String
  selectorJson : Text
  selectorHash : String
  snapshotHash : String
  dryRunHash : String
  environmentCountsJson : Text
  requestedBy : String
  approvalPolicy : String
  approvalStatus : ApprovalStatus
  requiredApprovals : ℤ
  approvalCount : ℤ
  maximumTargets : ℤ
  canarySize : ℤ
  globalConcurrency : ℤ
  perAgentConcurrency : ℤ
  perBenchConcurrency : ℤ
  maximumFailures : ℤ
  maximumFailureRatio : ℚ
  state : BulkState
  totalTargets : ℤ
  plannedCount : ℤ
  queuedCount : ℤ
  runningCount : ℤ
  succeededCount : ℤ
  failedCount : ℤ
  cancelledCount : ℤ
  needsInterventionCount : ℤ
  pauseRequested : Bool
  pauseRequestedBy : Option String
  pauseRequestedAt : Option DateTime
  cancelRequested : Bool
  cancelRequestedBy : Option String
  cancelRequestedAt : Option DateTime
  requestedAt : DateTime
  previewedAt : DateTime
  approvedAt : Option DateTime
  startedAt : Option DateTime
  completedAt : Option DateTime
  creation : DateTime
  deriving Repr

structure BulkOperationTarget where
  name : String
  bulkOperation : String
  targetKey : String
  ordinal : ℤ
  wave : ℤ
  attempt : ℤ
  serverAgent : String
  bench : String
  managedSite : String
  agentIdSnapshot : String
  benchIdSnapshot : String
  siteIdSnapshot : String
  siteDomainSnapshot : String
  environmentSnapshot : String
  inventoryRevision : String
  previewOperation : Option String
  previewResultHash : Option String
  retrySource : Option String
  retryOf : Option String
  state : BulkTargetState
  childOperation : Option String
  cancellationOperation : Option String
  resultJson : Option Text
  errorCode : Option String
  startedAt : Option DateTime
  completedAt : Option DateTime
  deriving Repr

structure BulkOperationApproval where
  name : String
  bulkOperation : String
  approvalPolicy : String
  decision : Decision
  approver : String
  decidedAt : DateTime
  comment : String
  snapshotHash : String
  payloadHash : String
  dryRunHash : String
  decisionHash : String
  deriving Repr

/-- The columns the controller adds to a Customer. -/
structure Customer where
  name : String
  /-- `controller_production_managed_site` -/
  managedSite : Option String
  /-- `controller_site_creation_operation` -/
  siteCreationOperation : Option String
  modified : DateTime
  deriving Repr

instance : Named ServerAgent := ⟨ServerAgent.name⟩
instance : Named Bench := ⟨Bench.name⟩
instance : Named ManagedSite := ⟨ManagedSite.name⟩
instance : Named ApprovalPolicy := ⟨ApprovalPolicy.name⟩
instance : Named ControllerOperation := ⟨ControllerOperation.name⟩
instance : Named OperationTarget := ⟨OperationTarget.name⟩
instance : Named OperationApproval := ⟨OperationApproval.name⟩
instance : Named BulkOperation := ⟨BulkOperation.name⟩
instance : Named BulkOperationTarget := ⟨BulkOperationTarget.name⟩
instance : Named BulkOperationApproval := ⟨BulkOperationApproval.name⟩
instance : Named Customer := ⟨Customer.name⟩

/-! ## The database -/

/-- The deployment's feature file: the environments each feature is on in. -/
structure FeatureConfig where
  masterEnabled : Bool
  features : List (String × List String)
  deriving DecidableEq, Repr

structure Database where
  agents : List ServerAgent
  benches : List Bench
  sites : List ManagedSite
  policies : List ApprovalPolicy
  operations : List ControllerOperation
  operationTargets : List OperationTarget
  operationApprovals : List OperationApproval
  operationEvents : List OperationEvent
  bulkOperations : List BulkOperation
  bulkTargets : List BulkOperationTarget
  bulkApprovals : List BulkOperationApproval
  customers : List Customer := []
  /-- `frappe.get_roles`: the users and their roles. -/
  roles : List (String × List String)
  featureConfig : FeatureConfig
  deriving Repr

/-! ## Exceptions -/

/-- The exceptions the modelled code raises, by class. -/
inductive Exc where
  /-- `dispatcher.ApprovalNotSatisfied(DispatchError)` -/
  | approvalNotSatisfied (message : String)
  /-- `dispatcher.DispatchConflict(DispatchError)` -/
  | dispatchConflict (message : String)
  /-- `security.ControllerRequestError(ValueError)` -/
  | controllerRequest (code : String)
  /-- `bulk_orchestrator.BulkOrchestrationError` -/
  | bulkOrchestration (message : String)
  /-- `bulk.BulkContractError(ValueError)` -/
  | bulkContract (message : String)
  /-- `operation_service.OperationAuthoringError(ValueError)` -/
  | operationAuthoring (message : String)
  | ingestionSchema (message : String)
  | ingestionOwnership (message : String)
  | ingestionConflict (message : String)
  | unknownOperation (message : String)
  /-- `frappe.ValidationError` -/
  | validation (message : String)
  /-- `frappe.ValidationError`, "Illegal state transition: {0} to {1}" on a Bulk Operation. -/
  | illegalBulkTransition (source target : BulkState)
  /-- `frappe.ValidationError`, the same on a Bulk Operation Target. -/
  | illegalBulkTargetTransition (source target : BulkTargetState)
  /-- `frappe.ValidationError`, the same on a Controller Operation or Operation Target. -/
  | illegalTransition (source target : OperationState)
  /-- `frappe.PermissionError` -/
  | permission (message : String)
  /-- `frappe.CharacterLengthExceededError` of a field. -/
  | characterLengthExceeded (field : String)
  /-- `frappe.DuplicateEntryError` -/
  | duplicateEntry (message : String)
  /-- `frappe.DoesNotExistError` -/
  | doesNotExist (message : String)
  /-- `frappe.TimestampMismatchError` -/
  | timestampMismatch (message : String)
  /-- `frappe.ValidationError`, "Illegal agent upgrade state transition". -/
  | illegalUpgradeTransition (source target : UpgradeState)
  | inventorySchema (message : String)
  | inventoryOwnership (message : String)
  | inventoryConflict (message : String)
  /-- An `AttributeError`, `TypeError` or `ValueError` no handler of the code names. -/
  | python (message : String)
  deriving DecidableEq, Repr

namespace Exc

/-- `isinstance(exc, DispatchConflict)` -/
def isDispatchConflict : Exc → Bool
  | .dispatchConflict _ => true
  | _ => false

/-- `isinstance(exc, BulkOrchestrationError)` -/
def isBulkOrchestrationError : Exc → Bool
  | .bulkOrchestration _ => true
  | _ => false

end Exc

/-- A statement sequence against the database: it may raise, and keeps its writes if it does. -/
abbrev DbM (α : Type) := EStateM Exc Database α

/-! ## Column updates by name -/

namespace Database

variable (db : Database)

def operation? (name : String) : Option ControllerOperation := Table.get? db.operations name

def bulkOperation? (name : String) : Option BulkOperation := Table.get? db.bulkOperations name

def bulkTarget? (name : String) : Option BulkOperationTarget := Table.get? db.bulkTargets name

/-- `db.set_value("Controller Operation", name, values, update_modified=False)` -/
def setOperation (name : String) (f : ControllerOperation → ControllerOperation) : Database :=
  { db with operations := Table.setValue name f db.operations }

/-- `db.set_value("Operation Target", {"operation": name}, values, update_modified=False)` -/
def setOperationTarget (operation : String) (f : OperationTarget → OperationTarget) : Database :=
  { db with
    operationTargets := Table.update (fun t => t.operation = operation) f db.operationTargets }

/-- `db.set_value("Bulk Operation Target", name, values, update_modified=False)` -/
def setBulkTarget (name : String) (f : BulkOperationTarget → BulkOperationTarget) : Database :=
  { db with bulkTargets := Table.setValue name f db.bulkTargets }

/-- The three writes that move an operation on: its own row, its target's, and its bulk
target's if it has one. -/
def advance (name : String) (bulkTarget : Option String)
    (f : ControllerOperation → ControllerOperation) (g : OperationTarget → OperationTarget)
    (h : BulkOperationTarget → BulkOperationTarget) : Database :=
  let advanced := (db.setOperation name f).setOperationTarget name g
  match bulkTarget with
  | none => advanced
  | some bulkTarget => advanced.setBulkTarget bulkTarget h

/-- `db.set_value("Bulk Operation", name, values, update_modified=False)` -/
def setBulkOperation (name : String) (f : BulkOperation → BulkOperation) : Database :=
  { db with bulkOperations := Table.setValue name f db.bulkOperations }

end Database

end FrappeController
