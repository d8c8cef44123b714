import FrappeController.AgentRequests
import FrappeController.Approvals
import FrappeController.FeatureFlags

/-!
# `api/upgrades.py` and `api/agent_upgrade_routes.py`

The two drivers of an agent's upgrade: the endpoints an administrator calls, and the route the
agent itself calls. Each loads the document, decides from its copy, and saves it. `zone` turns
an instant into the site's local time, which is what `now_datetime()` returns and what a save
writes as the `modified` stamp.
-/

namespace FrappeController
namespace AgentUpgrades

open FrappeInventory (Session read)
open AgentRequests (HttpRequest check trustedPeerAndRoute authenticatePeer)

/-! ## Helpers -/

/-- `_counts` -/
structure Counts where
  queued : ℕ
  leased : ℕ
  running : ℕ

@[inherit_doc Counts]
def counts (agentName : String) (db : Database) : Counts :=
  let count (state : OperationState) :=
    (db.operations.filter fun op => op.serverAgent == agentName && op.state == state).length
  { queued := count .queued, leased := count .leased, running := count .running }

def Counts.json (c : Counts) : Json :=
  .obj [("queued", .int c.queued), ("leased", .int c.leased), ("running", .int c.running)]

/-- `_has_active_operations` -/
def hasActiveOperations (c : Counts) : Bool := decide (0 < c.leased + c.running)

/-- `_admin` -/
def admin (user : String) (db : Database) : Except Exc String := do
  ensure (user != "" && user != "Guest" && (getRoles db user).contains "Controller Admin")
    (.permission "Controller Admin role is required")
  return user

/-- `_identity` -/
def identity (value : Json) (label : String) (pattern : String → Bool) : Except Exc String :=
  match value with
  | .str text =>
    if pattern text then .ok text else .error (.operationAuthoring (label ++ " is invalid"))
  | _ => .error (.operationAuthoring (label ++ " is invalid"))

/-- `_agent` -/
def agent (agentId : Json) (db : Database) : Except Exc ServerAgent :=
  match agentId with
  | .str agentId => do
    ensure (ServerAgent.isAgentId agentId) (.validation "agent id is invalid")
    match Table.get? db.agents agentId with
    | none => .error (.doesNotExist "server agent does not exist")
    | some document => return document
  | _ => .error (.validation "agent id is invalid")

/-- The heartbeat the document last saw is not older than its deployment. -/
def fresh (document : ServerAgent) : Bool :=
  match document.upgradeDeployedAt, document.lastSeen with
  | some deployed, some seen => decide (deployed ≤ seen)
  | _, _ => false

/-- `_healthy_post_deployment_heartbeat` -/
def healthyPostDeploymentHeartbeat (document : ServerAgent) (expectedVersion : Option String) :
    Bool :=
  document.status == .online && document.reportedStatus == some .ready
    && document.agentVersion == expectedVersion && fresh document

/-- An `OperationAuthoringError` becomes a `frappe.ValidationError` of the same text. -/
def throwAuthoring {α : Type} (m : EStateM Exc Session α) : EStateM Exc Session α := fun s =>
  match m s with
  | .error (.operationAuthoring message) s' => .error (.validation message) s'
  | result => result

/-- An expression that may raise. -/
def expr {α : Type} (x : Except Exc α) : EStateM Exc Session α := Transaction.query fun _ => x

/-- `_REQUEST_FIELDS` -/
def requestFields : List String :=
  ["agent_id", "desired_agent_version", "desired_image_digest", "previous_image_digest"]

/-- A digest an operator typed, checked outside of an authoring block. -/
def observedDigest (value : String) : EStateM Exc Session String :=
  throwAuthoring (expr (identity (.str value) "observed image digest" isSha256))

section Endpoints

variable (R : Runtime) (zone : DateTime → DateTime) (now : DateTime)

/-- `_save` -/
def save (document : ServerAgent) : EStateM Exc Session ServerAgent :=
  ServerAgent.save R (zone now) true document

/-- `{"agent_id": …, "upgrade_state": …}` and further fields. -/
def answer (document : ServerAgent) (fields : List (String × Json)) : Json :=
  .obj ([("agent_id", .str document.agentId), ("upgrade_state", .str document.upgradeState.text)]
    ++ fields)

/-- The states in which an upgrade waits for its agent to drain. -/
def undeployed (state : UpgradeState) : Bool :=
  state == .planned || state == .draining || state == .readyToDeploy

/-- The state of an undeployed upgrade, by the operations its agent still has. -/
def drainState (c : Counts) : UpgradeState :=
  if hasActiveOperations c then .draining else .readyToDeploy

/-! ## `api/upgrades.py` -/

/-- The request as a mapping; `loadsStrict` is `json.loads` that raises on duplicate keys and on
constants outside of JSON. -/
def parseRequest (loadsStrict : Text → Option Json) (requestJson : Text) :
    Except Exc (List (String × Json)) := do
  ensure (decide (utf8Length requestJson ≤ 4096)) (.operationAuthoring "upgrade request is invalid")
  match loadsStrict requestJson with
  | none => .error (.operationAuthoring "upgrade request is invalid JSON")
  | some (.obj value) => do
    ensure (Ingestion.sameKeys value requestFields)
      (.operationAuthoring "upgrade request fields do not match the contract")
    return value
  | some _ => .error (.operationAuthoring "upgrade request fields do not match the contract")

/-- The columns a new upgrade writes. -/
def plan (actor desiredVersion desiredDigest previousDigest : String) (requestedAt : DateTime)
    (document : ServerAgent) : ServerAgent :=
  { document with
    drainRequested := true, drainRequestedBy := some actor, drainRequestedAt := some requestedAt
    upgradeState := .planned, desiredAgentVersion := some desiredVersion
    desiredImageDigest := some desiredDigest, previousAgentVersion := document.agentVersion
    previousImageDigest := some previousDigest, upgradeRequestedBy := some actor
    upgradeRequestedAt := some requestedAt, upgradeDeployedAt := none, upgradeVerifiedAt := none
    upgradeFailureCode := none }

/-- `request_agent_upgrade` -/
def requestAgentUpgrade (loadsStrict : Text → Option Json) (user : String) (requestJson : Text) :
    EStateM Exc Session Json := do
  let actor ← read (admin user)
  throwAuthoring do
    let value ← expr (parseRequest loadsStrict requestJson)
    let desiredVersion ← expr (identity (Json.get value "desired_agent_version") "desired version"
      ServerAgent.isVersion)
    let desiredDigest ← expr (identity (Json.get value "desired_image_digest")
      "desired image digest" isSha256)
    let previousDigest ← expr (identity (Json.get value "previous_image_digest")
      "previous image digest" isSha256)
    let document ← read (agent (Json.get value "agent_id"))
    let _ ← read fun db => requireFeature db "agent_upgrades" (some document.environment)
    check (!document.upgradeState.active)
      (.operationAuthoring "agent already has an active upgrade")
    check (document.enabled && document.status == .online
        && document.reportedStatus == some .ready
        && ServerAgent.isVersion (document.agentVersion.getD ""))
      (.operationAuthoring "agent is not online and healthy with a verified current version")
    check (!truthy document.observedImageDigest
        || document.observedImageDigest == some previousDigest)
      (.operationAuthoring "previous image digest differs from the last verified deployment")
    check (some desiredVersion != document.agentVersion && desiredDigest != previousDigest)
      (.operationAuthoring "upgrade must change both version and image digest")
    let document ← save R zone now
      (plan actor desiredVersion desiredDigest previousDigest (zone now) document)
    return answer document [("drain_requested", .bool true)]

/-- `refresh_agent_drain` -/
def refreshAgentDrain (user agentId : String) : EStateM Exc Session Json := do
  let _ ← read (admin user)
  let document ← read (agent (.str agentId))
  check (undeployed document.upgradeState) (.validation "agent upgrade is not draining")
  let c ← read fun db => .ok (counts document.name db)
  if document.upgradeState = drainState c then
    return answer document [("operation_counts", c.json)]
  else do
    let document ← save R zone now { document with upgradeState := drainState c }
    return answer document [("operation_counts", c.json)]

/-- `confirm_agent_deployment` -/
def confirmAgentDeployment (user agentId observedImageDigest : String) :
    EStateM Exc Session Json := do
  let _ ← read (admin user)
  let document ← read (agent (.str agentId))
  let observed ← observedDigest observedImageDigest
  check (document.upgradeState == .readyToDeploy && some observed == document.desiredImageDigest)
    (.permission "deployment does not match the ready upgrade")
  let c ← read fun db => .ok (counts document.name db)
  check (!hasActiveOperations c)
    (.validation "agent acquired active operations after drain verification")
  let document ← save R zone now { document with
    observedImageDigest := some observed, upgradeDeployedAt := some (zone now)
    upgradeState := .verifying }
  return answer document []

/-- `request_agent_rollback` -/
def requestAgentRollback (user agentId failureCode : String) : EStateM Exc Session Json := do
  let _ ← read (admin user)
  let document ← read (agent (.str agentId))
  check ((document.upgradeState == .verifying && ServerAgent.failures.contains failureCode)
      || (document.upgradeState == .readyToDeploy && failureCode == "deployment_failed"))
    (.validation "rollback request is invalid")
  let document ← save R zone now { document with
    upgradeFailureCode := some failureCode, upgradeState := .rollbackRequired }
  return answer document [("previous_agent_version", .ofOption document.previousAgentVersion),
    ("previous_image_digest", .ofOption document.previousImageDigest)]

/-- `cancel_agent_upgrade` -/
def cancelAgentUpgrade (user agentId : String) : EStateM Exc Session Json := do
  let _ ← read (admin user)
  let document ← read (agent (.str agentId))
  check (undeployed document.upgradeState)
    (.validation "only a pre-deployment upgrade may be cancelled")
  let document ← save R zone now { document with
    upgradeState := .cancelled, upgradeFailureCode := some "operator_requested"
    drainRequested := false }
  return answer document [("drain_requested", .bool false)]

/-- `confirm_agent_rollback` -/
def confirmAgentRollback (user agentId observedImageDigest : String) :
    EStateM Exc Session Json := do
  let _ ← read (admin user)
  let document ← read (agent (.str agentId))
  let observed ← observedDigest observedImageDigest
  check (document.upgradeState == .rollbackRequired
      && some observed == document.previousImageDigest)
    (.permission "rollback deployment does not match the recorded prior image")
  let c ← read fun db => .ok (counts document.name db)
  check (!hasActiveOperations c) (.validation "agent has active operations during rollback")
  let document ← save R zone now { document with
    observedImageDigest := some observed, upgradeDeployedAt := some (zone now)
    upgradeState := .rollbackVerifying }
  return answer document []

/-- What a deployment under verification is expected to run, and the state its success leads to. -/
structure Expectation where
  version : Option String
  digest : Option String
  completed : UpgradeState

@[inherit_doc Expectation]
def expectation? (document : ServerAgent) : Option Expectation :=
  match document.upgradeState with
  | .verifying => some ⟨document.desiredAgentVersion, document.desiredImageDigest, .succeeded⟩
  | .rollbackVerifying =>
    some ⟨document.previousAgentVersion, document.previousImageDigest, .rolledBack⟩
  | _ => none

/-- The columns a completed upgrade writes. -/
def complete (state : UpgradeState) (verifiedAt : DateTime) (document : ServerAgent) :
    ServerAgent :=
  { document with
    upgradeState := state, upgradeVerifiedAt := some verifiedAt, drainRequested := false }

/-- `verify_agent_deployment` -/
def verifyAgentDeployment (user agentId : String) : EStateM Exc Session Json := do
  let _ ← read (admin user)
  let document ← read (agent (.str agentId))
  match expectation? document with
  | none => throw (.validation "agent deployment is not awaiting verification")
  | some expected => do
    check (document.observedImageDigest == expected.digest)
      (.permission "observed image digest does not match the expected deployment")
    let c ← read fun db => .ok (counts document.name db)
    check (!hasActiveOperations c)
      (.validation "agent has active operations during deployment verification")
    check (healthyPostDeploymentHeartbeat document expected.version)
      (.validation "a healthy post-deployment heartbeat from the expected version is required")
    let document ← save R zone now (complete expected.completed (zone now) document)
    return answer document [("drain_requested", .bool false)]

/-! ## `api/agent_upgrade_routes.py` -/

inductive RouteAction where
  | poll | deployed | failed | verify
  deriving DecidableEq, Repr

structure RouteRequest where
  agentId : String
  action : RouteAction
  observed : String

/-- `_FIELDS` -/
def routeFields : List String := ["agent_id", "action", "observed_image_digest"]

/-- `value["action"] in _ACTIONS`; an array or an object has no hash. -/
def routeAction : Json → Except Exc RouteAction
  | .str "poll" => .ok .poll
  | .str "deployed" => .ok .deployed
  | .str "failed" => .ok .failed
  | .str "verify" => .ok .verify
  | .arr _ | .obj _ => .error (.python "unhashable type")
  | _ => .error (.controllerRequest "invalid_upgrade_request")

/-- `_body` -/
def body (request : HttpRequest) : Except Exc RouteRequest := do
  ensure (request.method == "POST" && request.mimetype == "application/json")
    (.controllerRequest "invalid_upgrade_request")
  ensure (decide (utf8Length request.body ≤ 4096)) (.controllerRequest "invalid_upgrade_request")
  match R.loads request.body with
  | some (.obj value) => do
    ensure (Ingestion.sameKeys value routeFields) (.controllerRequest "invalid_upgrade_request")
    match Json.get value "agent_id" with
    | .str agentId => do
      ensure (Inventory.isAgent agentId) (.controllerRequest "invalid_agent")
      let action ← routeAction (Json.get value "action")
      match Json.get value "observed_image_digest" with
      | .str observed => return { agentId, action, observed }
      | _ => .error (.controllerRequest "invalid_upgrade_request")
    | _ => .error (.controllerRequest "invalid_agent")
  | _ => .error (.controllerRequest "invalid_upgrade_request")

/-- The first part of a poll: a stable agent's image is recorded once, and compared from then on. -/
def pollDigest (observed : String) (document : ServerAgent) : EStateM Exc Session ServerAgent :=
  if !isSha256 observed || document.upgradeState.active then pure document
  else if !truthy document.observedImageDigest then
    save R zone now { document with observedImageDigest := some observed }
  else if document.observedImageDigest != some observed then
    throw (.controllerRequest "image_digest_mismatch")
  else pure document

/-- The second part: a draining agent becomes ready, or draining again. -/
def pollDrain (c : Counts) (document : ServerAgent) : EStateM Exc Session ServerAgent :=
  if undeployed document.upgradeState && document.upgradeState != drainState c then
    save R zone now { document with upgradeState := drainState c }
  else pure document

/-- What the agent is told to do. -/
def instruction (document : ServerAgent) : List (String × Json) :=
  match document.upgradeState with
  | .readyToDeploy =>
    [("action", .str "deploy"), ("image_digest", .ofOption document.desiredImageDigest)]
  | .rollbackRequired =>
    [("action", .str "rollback"), ("image_digest", .ofOption document.previousImageDigest)]
  | .verifying | .rollbackVerifying =>
    [("action", .str "verify"), ("image_digest", .ofOption document.observedImageDigest)]
  | _ => [("action", .str "none"), ("image_digest", .str "")]

/-- `{"accepted": True, "upgrade_state": …}` and further fields. -/
def accepted (document : ServerAgent) (fields : List (String × Json)) : Json :=
  .obj ([("accepted", .bool true), ("upgrade_state", .str document.upgradeState.text)] ++ fields)

/-- `choices`: the digest a deployment must have, and the state it leads to. -/
def deployChoice? (document : ServerAgent) : Option (Option String × UpgradeState) :=
  match document.upgradeState with
  | .readyToDeploy => some (document.desiredImageDigest, .verifying)
  | .rollbackRequired => some (document.previousImageDigest, .rollbackVerifying)
  | _ => none

/-- The condition under which the route refuses a verification. The expected digest and version
are the desired ones in the state `verifying`, and the previous ones in every other. -/
def verificationPending (c : Counts) (observed : String) (document : ServerAgent) : Bool :=
  let desired := document.upgradeState == .verifying
  let digest := if desired then document.desiredImageDigest else document.previousImageDigest
  let version := if desired then document.desiredAgentVersion else document.previousAgentVersion
  !(document.upgradeState == .verifying || document.upgradeState == .rollbackVerifying)
    || some observed != digest || document.observedImageDigest != digest
    || hasActiveOperations c || document.status != .online
    || document.reportedStatus != some .ready || document.agentVersion != version
    || !fresh document

/-- One action of `upgrade_route`, after the request is authenticated. -/
def act (action : RouteAction) (observed : String) (c : Counts) (document : ServerAgent) :
    EStateM Exc Session Json :=
  match action with
  | .poll => do
    let document ← pollDigest R zone now observed document
    let document ← pollDrain R zone now c document
    return accepted document (instruction document)
  | .failed => do
    check (isSha256 observed) (.controllerRequest "invalid_image_digest")
    check (document.upgradeState == .readyToDeploy || document.upgradeState == .verifying)
      (.controllerRequest "upgrade_state_conflict")
    let document ← save R zone now { document with
      upgradeFailureCode := some "deployment_failed", upgradeState := .rollbackRequired }
    return accepted document []
  | .deployed => do
    check (isSha256 observed) (.controllerRequest "invalid_image_digest")
    check (!hasActiveOperations c) (.controllerRequest "upgrade_not_drained")
    match deployChoice? document with
    | none => throw (.controllerRequest "upgrade_state_conflict")
    | some (digest, state) => do
      check (some observed == digest) (.controllerRequest "upgrade_state_conflict")
      let document ← save R zone now { document with
        observedImageDigest := some observed, upgradeDeployedAt := some (zone now)
        upgradeState := state }
      return accepted document []
  | .verify => do
    check (isSha256 observed) (.controllerRequest "invalid_image_digest")
    check (!verificationPending c observed document)
      (.controllerRequest "upgrade_verification_pending")
    let state := if document.upgradeState = .verifying then UpgradeState.succeeded else .rolledBack
    let document ← save R zone now (complete state (zone now) document)
    return accepted document []

/-- The part of `upgrade_route` that follows the signature check and its commit. -/
def upgradeAction (routed : String) (request : RouteRequest) : EStateM Exc Session Json := do
  let _ ← read (authenticatePeer routed routed request.agentId)
  let document ← read fun db =>
    match Table.get? db.agents request.agentId with
    | none => .error (.doesNotExist "Server Agent")
    | some document => .ok document
  let c ← read fun db => .ok (counts document.name db)
  act R zone now request.action request.observed c document

/-- `upgrade_route`: its answer, and the committed version it leaves behind. An exception rolls
back to the commit of the signature check. -/
def upgradeRoute (C : Crypto) (request : HttpRequest) (timeNs : ℤ) (db : Database) :
    Except Exc Json × Database :=
  match body R request with
  | .error e => (.error e, db)
  | .ok value =>
    match trustedPeerAndRoute R C request "upgrade" timeNs { view := db, current := db } with
    | .error e _ => (.error e, db)
    | .ok routed session =>
      match upgradeAction R zone now routed value
          { view := session.current, current := session.current } with
      | .error e _ => (.error e, session.current)
      | .ok response session' => (.ok response, session'.current)

end Endpoints

end AgentUpgrades

end FrappeController
