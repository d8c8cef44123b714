import FrappeController.PythonText
import FrappeController.Security
import Mathlib.Data.List.Sort

/-!
# `dispatcher.py`: operations become protocol envelopes

`ApprovalBoundDispatcher` joins a Controller Operation with its agent, bench and site,
recounts the approvals, and builds the command an agent receives (`envelope`); `dispatch`
fixes that command on the row, and `validatePersisted` checks at every lease that the
fixed command is still the one the rows describe.
-/

namespace FrappeController

/-- `immutable_command` -/
def immutableCommand (envelope : List (String × Json)) : List (String × Json) :=
  Json.without envelope ["issued_at", "expires_at"]

/-- `immutable_command_hash` -/
def immutableCommandHash (R : Runtime) (envelope : List (String × Json)) : Except Exc String := do
  let text ← canonicalJson R (.obj (immutableCommand envelope))
  return R.sha256 text

namespace Dispatcher

/-! ## Reads -/

/-- A row of the join `_operation` selects. -/
structure OperationRow where
  op : ControllerOperation
  agentId : String
  audience : String
  agentEnabled : Bool
  currentInventoryRevision : Option String
  agentDraining : Bool
  benchId : String
  siteId : Option String
  siteDomain : Option String

/-- `_operation`: the operation joined with its agent and bench, and its site if it has one. -/
def operationRow? (db : Database) (name : String) : Option OperationRow := do
  let op ← db.operation? name
  let agent ← Table.get? db.agents op.serverAgent
  let bench ← Table.get? db.benches op.bench
  let site := op.managedSite.bind (Table.get? db.sites)
  return {
    op, agentId := agent.agentId, audience := agent.audience, agentEnabled := agent.enabled
    currentInventoryRevision := agent.inventoryDigest, agentDraining := agent.drainRequested
    benchId := bench.benchId, siteId := site.map (·.siteId), siteDomain := site.map (·.domain) }

/-- `_target` -/
def target (db : Database) (name : String) : Except Exc OperationTarget :=
  match db.operationTargets.filter (fun t => t.operation == name) with
  | [t] => .ok t
  | _ => .error (.dispatchConflict "an operation must have exactly one immutable target")

/-! ## Approval claims -/

/-- The claim a command carries for one approval row. -/
def claim (name approver decisionHash : String) (decidedAt : DateTime) : Json :=
  .obj [("approval_id", .str name), ("approved_by", .str approver),
    ("decision_hash", .str decisionHash), ("decided_at", .str (timestamp decidedAt))]

/-- `ORDER BY decided_at, name` -/
def decidedBefore (a b : DateTime × String) : Bool :=
  a.1.micros < b.1.micros || (a.1.micros == b.1.micros && a.2 ≤ b.2)

/-- The decisions on an operation, in the order of the query. -/
def approvals (db : Database) (operation : String) : List OperationApproval :=
  (db.operationApprovals.filter fun a => a.operation == operation).insertionSort
    fun a b => decidedBefore (a.decidedAt, a.name) (b.decidedAt, b.name)

/-- The decisions on a bulk parent, in the order of the query. -/
def bulkApprovals (db : Database) (parent : String) : List BulkOperationApproval :=
  (db.bulkApprovals.filter fun a => a.bulkOperation == parent).insertionSort
    fun a b => decidedBefore (a.decidedAt, a.name) (b.decidedAt, b.name)

/-- The loop both kinds of approvals run over their approved rows: check each against the
approvers seen so far, and emit its claim. -/
def collectClaims {α : Type} (check : α → List String → Except Exc Unit) (approver : α → String)
    (toClaim : α → Json) : List α → List String → Except Exc (List Json)
  | [], _ => .ok []
  | a :: rest, approvers => do
    check a approvers
    let claims ← collectClaims check approver toClaim rest (approver a :: approvers)
    return toClaim a :: claims

/-- The checks of `_approval_claims` on one approved row. -/
def checkApproval (op : ControllerOperation) (target : OperationTarget) (a : OperationApproval)
    (approvers : List String) : Except Exc Unit := do
  ensure (some a.approvalPolicy == op.approvalPolicy)
    (.dispatchConflict "approval policy does not match operation")
  ensure (!(a.approver == op.requestedBy || approvers.contains a.approver))
    (.dispatchConflict "approval attribution is invalid")
  ensure (isSha256 a.decisionHash) (.dispatchConflict "approval decision hash is invalid")
  ensure (a.payloadHashSnapshot == op.payloadHash && a.targetKeySnapshot == target.targetKey
      && orNone a.previewResultHashSnapshot == orNone op.previewResultHash)
    (.dispatchConflict "approval evidence snapshot changed")

def approvalClaim (a : OperationApproval) : Json :=
  claim a.name a.approver a.decisionHash a.decidedAt

/-- The parent and the target of a bulk child, as `_bulk_approval_claims` joins them. -/
def bulkParentRow? (db : Database) (op : ControllerOperation) :
    Option (BulkOperation × Option String) := do
  let parent ← op.bulkParent.bind db.bulkOperation?
  let target ← op.bulkTarget.bind db.bulkTarget?
  if target.bulkOperation = parent.name then some (parent, target.previewResultHash) else none

/-- The binding of a child to its parent: every disjunct of the first check. -/
def bulkBinding (op : ControllerOperation) (parent : BulkOperation)
    (previewResultHash : Option String) : Bool :=
  parent.requestedBy == op.requestedBy
    && some parent.approvalPolicy == op.approvalPolicy
    && parent.operationType == op.operationType
    && parent.payloadHash == op.payloadHash
    && previewResultHash == op.previewResultHash
    && parent.approvalStatus == .approved
    && [BulkState.approved, .canary, .running, .paused].contains parent.state
    && parent.requiredApprovals == op.requiredApprovals
    && parent.approvalCount == op.approvalCount

/-- The check of `_bulk_approval_claims` on one approved row. -/
def checkBulkApproval (parent : BulkOperation) (a : BulkOperationApproval)
    (approvers : List String) : Except Exc Unit :=
  ensure (a.approvalPolicy == parent.approvalPolicy
      && !(a.approver == parent.requestedBy) && !approvers.contains a.approver
      && a.snapshotHash == parent.snapshotHash && a.payloadHash == parent.payloadHash
      && a.dryRunHash == parent.dryRunHash && isSha256 a.decisionHash)
    (.dispatchConflict "bulk approval attribution or evidence changed")

def bulkApprovalClaim (a : BulkOperationApproval) : Json :=
  claim a.name a.approver a.decisionHash a.decidedAt

/-- `_bulk_approval_claims` -/
def bulkApprovalClaims (db : Database) (op : ControllerOperation) : Except Exc (List Json) := do
  match bulkParentRow? db op with
  | none => .error (.approvalNotSatisfied "bulk approval binding is not satisfied")
  | some (parent, previewResultHash) =>
    ensure (bulkBinding op parent previewResultHash)
      (.approvalNotSatisfied "bulk approval binding is not satisfied")
    ensure (isSha256 parent.snapshotHash && isSha256 parent.payloadHash
        && isSha256 parent.dryRunHash)
      (.dispatchConflict "bulk approval evidence hash is invalid")
    let rows := bulkApprovals db parent.name
    ensure (!rows.any (·.decision == .rejected))
      (.approvalNotSatisfied "bulk operation has a rejection")
    let approved := rows.filter (·.decision == .approved)
    ensure (1 ≤ parent.requiredApprovals && parent.requiredApprovals ≤ approved.length
        && (approved.length : ℤ) == parent.approvalCount)
      (.approvalNotSatisfied "bulk approval threshold is not satisfied")
    collectClaims (checkBulkApproval parent) (·.approver) bulkApprovalClaim approved []

/-- `_approval_claims` of an operation without a bulk parent. -/
def singleApprovalClaims (db : Database) (op : ControllerOperation) (target : OperationTarget) :
    Except Exc (List Json) := do
  let rows := approvals db op.name
  ensure (!rows.any (·.decision == .rejected))
    (.approvalNotSatisfied "operation has a rejection")
  let approved := rows.filter (·.decision == .approved)
  if op.requiredApprovals = 0 then do
    ensure (op.approvalStatus == .notRequired)
      (.approvalNotSatisfied "approval bypass is inconsistent")
    return []
  else do
    ensure (op.approvalStatus == .approved && op.requiredApprovals ≤ approved.length)
      (.approvalNotSatisfied "approval threshold is not satisfied")
    ensure (op.approvalCount == approved.length)
      (.dispatchConflict "stored approval count is stale")
    collectClaims (checkApproval op target) (·.approver) approvalClaim approved []

/-- `_approval_claims` -/
def approvalClaims (db : Database) (op : ControllerOperation) (target : OperationTarget) :
    Except Exc (List Json) :=
  if truthy op.bulkParent then bulkApprovalClaims db op else singleApprovalClaims db op target

/-! ## Commands -/

variable (R : Runtime)

/-- `json.loads(text)` under `except (TypeError, json.JSONDecodeError)`, which raises the conflict:
the document, or the value whose strings hold surrogates. Every other exception passes. -/
def decoded (message : String) (text : Option Text) : Except Exc (Json ⊕ PyJson) :=
  match text with
  -- `json.loads(None)` is a `TypeError`
  | none => .error (.dispatchConflict message)
  | some text =>
    match R.loads text with
    | some value => .ok (.inl value)
    | none =>
      match R.unread text with
      | .decode => .error (.dispatchConflict message)
      | .digits => .error (.python "ValueError")
      | .recursion => .error (.python "RecursionError")
      | .surrogates value => .ok (.inr value)

/-- The payload part of `envelope`: the decoded object and its hash, which must be the stored
one. -/
def payload (op : ControllerOperation) : Except Exc (List (String × Json) × String) := do
  match ← decoded R "operation payload is invalid JSON" (some op.payloadJson) with
  | .inl (.obj fields) =>
    ensure (validateJson R true false (.obj fields)).isOk
      (.dispatchConflict "operation payload contains forbidden data")
    let text ← canonicalJson R (.obj fields)
    ensure (R.sha256 text == op.payloadHash) (.dispatchConflict "operation payload hash changed")
    return (fields, R.sha256 text)
  | .inr (.obj fields) =>
    -- no name it looks for holds U+FFFD
    ensure (validateJson R true false (.obj (PyJson.replacedFields fields))).isOk
      (.dispatchConflict "operation payload contains forbidden data")
    .error (.python "UnicodeEncodeError")
  | _ => .error (.dispatchConflict "operation payload must be an object")

/-- The part of `envelope` before the approvals: the identity, payload and target checks. -/
def checked (db : Database) (name : String) :
    Except Exc (OperationRow × String × List (String × Json) × String × OperationTarget) := do
  match operationRow? db name with
  | none => .error (.dispatchConflict "unknown operation")
  | some row =>
    let op := row.op
    ensure row.agentEnabled (.dispatchConflict "operation targets a disabled agent")
    ensure (!row.agentDraining) (.dispatchConflict "operation targets a draining agent")
    ensure (op.protocolVersion == "1.0" && row.audience == "frappe-controller")
      (.dispatchConflict "operation protocol identity is invalid")
    match R.uuid op.operationId with
    | none => .error (.dispatchConflict "operation UUID is invalid")
    | some operationId =>
      ensure (operationId == op.operationId.toLower)
        (.dispatchConflict "operation UUID is not canonical")
      ensure (endsWith op.idempotencyKey operationId)
        (.dispatchConflict "idempotency key is not bound to the operation")
      let (fields, payloadHash) ← payload R op
      let t ← target db op.name
      ensure (t.serverAgent == op.serverAgent && t.bench == op.bench
          && t.managedSite == op.managedSite && t.siteDomainSnapshot == row.siteDomain
          && t.operationTypeSnapshot == op.operationType
          && t.payloadHashSnapshot == op.payloadHash)
        (.dispatchConflict "operation target snapshot changed")
      -- a snapshot taken from another inventory than the agent's current one is stale
      match orNone t.inventoryRevisionSnapshot with
      | none => return (row, operationId, fields, payloadHash, t)
      | some revision =>
        ensure (isSha256 revision && some revision == row.currentInventoryRevision)
          (.dispatchConflict "operation inventory snapshot changed")
        return (row, operationId, fields, payloadHash, t)

/-- The command of a checked operation. -/
def command (lifetime : ℕ) (now : DateTime) (row : OperationRow) (operationId : String)
    (fields : List (String × Json)) (payloadHash : String) (claims : List Json) :
    List (String × Json) :=
  [("protocol_version", .str "1.0"), ("operation_id", .str operationId),
    ("idempotency_key", .str row.op.idempotencyKey), ("agent_id", .str row.agentId),
    ("audience", .str row.audience), ("bench_id", .str row.benchId),
    ("site_id", Json.ofOption row.siteId), ("operation", .str row.op.operationType),
    ("payload", .obj fields), ("requested_by", .str row.op.requestedBy),
    ("approval_claims", .arr claims), ("issued_at", .str (timestamp now)),
    ("expires_at", .str (timestamp (now.addSeconds lifetime))), ("payload_hash", .str payloadHash)]

/-- `envelope` -/
def envelope (lifetime : ℕ) (db : Database) (name : String) (now : DateTime) :
    Except Exc (List (String × Json)) := do
  let (row, operationId, fields, payloadHash, t) ← checked R db name
  let claims ← approvalClaims db row.op t
  return command lifetime now row operationId fields payloadHash claims

/-- The columns `dispatch` writes on the operation. -/
def queue (commandJson : Text) (digest : String) (op : ControllerOperation) : ControllerOperation :=
  { op with state := .queued, commandJson := some commandJson, commandHash := some digest }

/-- `dispatch` -/
def dispatch (lifetime : ℕ) (name : String) (now : DateTime) : DbM (List (String × Json)) := do
  let env ← Transaction.query fun db => envelope R lifetime db name now
  let digest ← Transaction.query fun _ => immutableCommandHash R env
  let text ← Transaction.query fun _ => canonicalJson R (.obj env)
  let db ← get
  match db.operation? name with
  | none => throw (.python "AssertionError")
  | some op =>
    if op.state = .queued ∧ orNone op.commandHash = some digest then return env
    else if op.state ≠ .awaitingApproval ∨ orNone op.commandHash ≠ none then
      throw (.dispatchConflict "operation is not dispatchable")
    else do
      modify fun db => db.setOperation name (queue text digest)
      modify fun db => db.setOperationTarget name fun t => { t with state := .queued }
      return env

/-- The fields of a persisted command that must agree with the live operation. -/
def expected (row : OperationRow) (payload : Json) : List (String × Json) :=
  [("protocol_version", .str row.op.protocolVersion), ("operation_id", .str row.op.operationId),
    ("idempotency_key", .str row.op.idempotencyKey), ("agent_id", .str row.agentId),
    ("audience", .str row.audience), ("bench_id", .str row.benchId),
    ("site_id", Json.ofOption row.siteId), ("operation", .str row.op.operationType),
    ("payload", payload), ("requested_by", .str row.op.requestedBy),
    ("payload_hash", .str row.op.payloadHash)]

/-- `immutable_command` of a command with surrogates, as what can be encoded: that is all of it
where they stand in the two fields `immutable_command` leaves out. -/
def encodedCommand (fields : List (PyStr × PyJson)) : Except Exc (List (String × Json)) := do
  let command := fields.filter fun f =>
    f.1 != .ofString "issued_at" && f.1 != .ofString "expires_at"
  match PyJson.toFields? command with
  | some command => return command
  | none => do
    validateJson R false false (.obj (PyJson.replacedFields command))
    .error (.python "UnicodeEncodeError")

/-- The stored command decoded and checked against its stored hash. -/
def persisted (commandJson : Option Text) (commandHash : Option String) :
    Except Exc (List (String × Json)) := do
  match ← decoded R "persisted command is invalid" commandJson with
  | .inl (.obj fields) =>
    ensure (isSha256 (commandHash.getD "")) (.dispatchConflict "persisted command hash changed")
    let digest ← immutableCommandHash R fields
    ensure (some digest == commandHash) (.dispatchConflict "persisted command hash changed")
    return fields
  | .inr (.obj fields) =>
    ensure (isSha256 (commandHash.getD "")) (.dispatchConflict "persisted command hash changed")
    -- the fields it is without are written anew by `stamp`
    let fields ← encodedCommand R fields
    let digest ← immutableCommandHash R fields
    ensure (some digest == commandHash) (.dispatchConflict "persisted command hash changed")
    return fields
  | _ => .error (.dispatchConflict "persisted command must be an object")

/-- The stored command compared with the operation, its target and its approvals. -/
def validateSnapshot (db : Database) (name : String) (fields : List (String × Json)) :
    Except Exc Unit := do
  match operationRow? db name with
  | none => .error (.dispatchConflict "unknown operation")
  | some row =>
    match ← decoded R "operation payload is invalid JSON" (some row.op.payloadJson) with
    -- the command was encoded, so it holds no such payload
    | .inr _ => .error (.dispatchConflict "persisted command no longer matches operation")
    | .inl payload =>
      ensure ((expected row payload).all fun f => Json.pyEq (Json.get fields f.1) f.2)
        (.dispatchConflict "persisted command no longer matches operation")
      match Json.get fields "approval_claims" with
      | .arr persistedClaims =>
        let t ← target db name
        ensure (t.serverAgent == row.op.serverAgent && t.bench == row.op.bench
            && orNone t.managedSite == orNone row.op.managedSite
            && t.operationTypeSnapshot == row.op.operationType
            && t.payloadHashSnapshot == row.op.payloadHash)
          (.dispatchConflict "operation target snapshot changed")
        ensure (((orNone t.inventoryRevisionSnapshot).map isSha256).getD true)
          (.dispatchConflict "operation inventory snapshot is invalid")
        let claims ← approvalClaims db row.op t
        ensure (Json.pyEq (.arr persistedClaims) (.arr claims))
          (.dispatchConflict "persisted approval claims changed")
      | _ => .error (.dispatchConflict "persisted approval claims are invalid")

/-- A command with the validity of this delivery. -/
def stamp (lifetime : ℕ) (now : DateTime) (fields : List (String × Json)) :
    List (String × Json) :=
  Json.set (Json.set fields "issued_at" (.str (timestamp now))) "expires_at"
    (.str (timestamp (now.addSeconds lifetime)))

/-- `validate_persisted` -/
def validatePersisted (lifetime : ℕ) (db : Database) (name : String)
    (commandJson : Option Text) (commandHash : Option String) (now : DateTime) :
    Except Exc (List (String × Json)) := do
  let fields ← persisted R commandJson commandHash
  validateSnapshot R db name fields
  return stamp lifetime now fields

end Dispatcher

end FrappeController
