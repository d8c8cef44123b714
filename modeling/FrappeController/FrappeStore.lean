import FrappeController.Dispatcher
import FrappeController.FeatureFlags

/-!
# `frappe_store.py`: leasing queued commands to their agent

`lease_command` walks the agent's leasable operations in creation order, quarantines the
ones whose stored command conflicts with its rows, and leases the first that validates.
-/

namespace FrappeController
namespace FrappeStore

open Dispatcher

/-! ## The queue -/

/-- A row of the scan. -/
structure Candidate where
  name : String
  commandJson : Option Text
  commandHash : Option String
  operationType : String
  payloadJson : Text
  bulkParent : Option String
  bulkTarget : Option String
  targetEnvironment : String

/-- The states in which a fixed command may be leased: queued, or leased and expired. -/
def leasableState (op : ControllerOperation) (now : DateTime) : Bool :=
  op.commandHash.isSome
    && (op.state == .queued
      || (op.state == .leased && (op.leaseExpiresAt.map fun at' => decide (at' ≤ now)).getD false))

/-- An operation as the scan joins it, if it is one of this agent's leasable operations. The
environment is the bulk target's, else the site's, else the agent's. -/
def candidate? (db : Database) (agentId : String) (allowedOperationTypes : Option (List String))
    (locked : List String) (now : DateTime) (op : ControllerOperation) : Option Candidate := do
  let agent ← Table.get? db.agents op.serverAgent
  let site := op.managedSite.bind (Table.get? db.sites)
  let bulkTarget := op.bulkTarget.bind db.bulkTarget?
  if agent.agentId == agentId && agent.enabled && !agent.drainRequested && leasableState op now
      && (allowedOperationTypes.map (·.contains op.operationType)).getD true
      && !locked.contains op.name then
    some {
      name := op.name, commandJson := op.commandJson, commandHash := op.commandHash
      operationType := op.operationType, payloadJson := op.payloadJson
      bulkParent := op.bulkParent, bulkTarget := op.bulkTarget
      targetEnvironment := ((bulkTarget.map (·.environmentSnapshot)).orElse fun _ =>
        site.map (·.environment)).getD agent.environment }
  else none

/-- `ORDER BY o.creation, o.name` -/
def createdBefore (a b : ControllerOperation) : Bool :=
  decidedBefore (a.creation, a.name) (b.creation, b.name)

/-- The scan of `lease_command`; `locked` are the rows other transactions hold, which
`SKIP LOCKED` leaves out. -/
def leasable (db : Database) (agentId : String) (allowedOperationTypes : Option (List String))
    (locked : List String) (now : DateTime) : List Candidate :=
  ((db.operations.insertionSort fun a b => createdBefore a b).filterMap
    (candidate? db agentId allowedOperationTypes locked now)).take 1001

/-- `command_enabled_for_agent`, the filter the route layer leases with. -/
def commandEnabledForAgent (R : Runtime) (db : Database) (operation : Candidate) : Bool :=
  operationEnabled R db.featureConfig operation.targetEnvironment operation.operationType
    operation.payloadJson operation.bulkParent

/-! ## Leasing -/

/-- The columns a quarantine writes on the operation, on its target and on its bulk target. -/
def failOperation (now : DateTime) (op : ControllerOperation) : ControllerOperation :=
  { op with
    state := .failed, errorCode := some "command_snapshot_conflict", completedAt := some now }

@[inherit_doc failOperation]
def failTarget (t : OperationTarget) : OperationTarget :=
  { t with state := .failed, errorCode := some "command_snapshot_conflict" }

@[inherit_doc failOperation]
def failBulkTarget (now : DateTime) (t : BulkOperationTarget) : BulkOperationTarget :=
  { t with
    state := .child .failed, errorCode := some "command_snapshot_conflict"
    completedAt := some now }

/-- The writes that quarantine a candidate. -/
def quarantine (candidate : Candidate) (now : DateTime) (db : Database) : Database :=
  db.advance candidate.name (orNone candidate.bulkTarget) (failOperation now) failTarget
    (failBulkTarget now)

variable (R : Runtime) (lifetime clockSkew : ℕ)

/-- The scan loop: the first candidate that passes the filter and validates, and its
envelope. Only a `DispatchConflict` quarantines; any other exception leaves the loop. -/
def firstValid (commandFilter : Candidate → Bool) (now : DateTime) :
    List Candidate → DbM (Option (Candidate × List (String × Json)))
  | [] => pure none
  | candidate :: rest =>
    if commandFilter candidate then do
      let db ← get
      match validatePersisted R lifetime db candidate.name candidate.commandJson
        candidate.commandHash now with
      | .ok env => return some (candidate, env)
      | .error (.dispatchConflict _) => do
        modify (quarantine candidate now)
        firstValid commandFilter now rest
      | .error e => throw e
    else firstValid commandFilter now rest

/-- The columns a lease writes. -/
def lease (now : DateTime) (op : ControllerOperation) : ControllerOperation :=
  { op with
    state := .leased, issuedAt := some now, expiresAt := some (now.addSeconds lifetime)
    leaseExpiresAt := some ((now.addSeconds lifetime).addSeconds clockSkew) }

/-- `lease_command`. The lease and the quarantines are committed before the envelope is
encoded for the agent; the text decodes to the envelope itself. -/
def leaseCommand (agentId : String) (now : DateTime)
    (allowedOperationTypes : Option (List String)) (commandFilter : Candidate → Bool)
    (locked : List String) : DbM (Option (List (String × Json))) := do
  if allowedOperationTypes = some [] then return none
  let db ← get
  let found ← firstValid R lifetime commandFilter now
    (leasable db agentId allowedOperationTypes locked now)
  match found with
  | none => return none
  | some (operation, env) => do
    let env := stamp lifetime now env
    modify fun db => db.setOperation operation.name (lease lifetime clockSkew now)
    modify fun db => db.setOperationTarget operation.name fun t => { t with state := .leased }
    let _ ← Transaction.query fun _ => canonicalJson R (.obj env)
    return some env

/-- `lease_command` of the store the routes are given: of the operation types enabled on the
agent, the commands enabled at their targets. -/
def routeLeaseCommand (agentId : String) (now : DateTime) (locked : List String) :
    DbM (Option (List (String × Json))) := do
  let db ← get
  leaseCommand R lifetime clockSkew agentId now (some (enabledOperationsForAgent db agentId))
    (commandEnabledForAgent R db) locked

end FrappeStore

end FrappeController
