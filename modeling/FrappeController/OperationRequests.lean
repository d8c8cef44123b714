import FrappeController.CustomerSites

/-!
# `api/operations.py`: requests for single operations

`create_operation` authors an operation and queues it if it needs no approval; `retry_operation`
authors the one successor of an operation that ended unsuccessfully.
-/

namespace FrappeController
namespace OperationRequests

open FrappeInventory (Session read readForUpdate write)
open OperationDocuments OperationAuthoring CustomerSites

variable (R : Runtime) (services : Services)

/-! ## `create_operation` -/

/-- `value[field]`, a text that is neither empty nor padded. -/
def identity (value : List (String × Json)) (field : String) : Except Exc String :=
  match Json.get value field with
  | .str s => do
    ensure (s != "" && isStripped s.toList) (refused "operation request identity is invalid")
    return s
  | _ => .error (refused "operation request identity is invalid")

/-- `value["managed_site"]` -/
def managedSite (value : List (String × Json)) : Except Exc (Option String) :=
  match Json.get value "managed_site" with
  | .null => .ok none
  | .str s => do
    ensure (s != "" && isStripped s.toList) (refused "managed site identity is invalid")
    return some s
  | _ => .error (refused "managed site identity is invalid")

/-- `_request`, of the decoded request. -/
def request (value : Json) : Except Exc OperationRequest :=
  match value with
  | .obj fields => do
    ensure (Ingestion.sameKeys fields
        ["operation_id", "operation_type", "server_agent", "bench", "managed_site", "payload"])
      (refused "operation request fields do not match the contract")
    let operationId ← identity fields "operation_id"
    let operationType ← identity fields "operation_type"
    let serverAgent ← identity fields "server_agent"
    let bench ← identity fields "bench"
    let site ← managedSite fields
    match Json.get fields "payload" with
    | .obj payload =>
      return { operationId, operationType, serverAgent, bench, managedSite := site, payload }
    | _ => .error (refused "operation payload must be an object")
  | _ => .error (refused "operation request fields do not match the contract")

/-- The answer of `create_operation`. -/
structure Created where
  operationId : String
  state : OperationState
  approvalStatus : ApprovalStatus
  requiredApprovals : ℤ
  payloadHash : String
  deriving DecidableEq, Repr

/-- The feature gate of a request, and the readiness of the site it would create. -/
def checkRequest (request : OperationRequest) (db : Database) : Except Exc Unit := do
  requireOperation R db (targetEnvironment db request.serverAgent request.managedSite)
    request.operationType (R.dumps (.obj request.payload)) none
  -- a request that was authored before keeps its answer; the column ignores the case of its id
  if (db.operation? (R.lower request.operationId)).isSome then return ()
  else
    checkBlankCreation services request.operationType request.serverAgent request.bench
      request.payload db

/-- `create_operation` -/
def createOperation (actor : String) (value : Json) (insertion : Insertion) :
    EStateM Exc Session Created := do
  read fun db => requireAuthor db actor
  asValidation do
    let request ← Transaction.query fun _ => request value
    read (checkRequest R services request)
    let authored ← author R services.validatePayload request actor insertion
    let requested ← enqueueIfApproved R services.commandLifetime authored insertion.now
    return {
      operationId := authored.operationId, state := requested.state
      approvalStatus := authored.approvalStatus
      requiredApprovals := authored.requiredApprovals, payloadHash := authored.payloadHash }

/-! ## `retry_operation` -/

/-- A retry request, with the UUID its operation would get. -/
structure RetryRequest where
  actor : String
  operationId : String
  recoveryConfirmed : Bool
  /-- `check_permission("read")` on the operation, `check_permission("write")` on the Customers -/
  mayRead : Bool
  mayWrite : Bool
  uuid4 : String
  insertion : Insertion

/-- `SELECT ... WHERE retry_of=%s AND IFNULL(bulk_parent,'')='' ORDER BY creation LIMIT 1` -/
def successor? (db : Database) (original : String) : Option ControllerOperation :=
  ((db.operations.filter fun op => op.retryOf == some original && !truthy op.bulkParent)
    |>.insertionSort fun a b => a.creation.micros ≤ b.creation.micros).head?

/-- The Customers whose site the operation was to create. -/
def requesters (db : Database) (original : String) : List String :=
  ((db.customers.filter fun c => c.siteCreationOperation == some original).map (·.name)).insertionSort
    (· ≤ ·)

/-- The checks before a successor is authored; the answer is the payload. -/
def checkRetry (original : ControllerOperation) (db : Database) :
    Except Exc (List (String × Json)) := do
  match R.loads original.payloadJson with
  | some (.obj payload) => do
    let domain := (Json.get payload "domain").str?
    ensure (!(FrappeRepository.isCreation original.operationType
        && db.sites.any fun s => some s.domain == domain))
      (.validation "The site is already in inventory; inspect it instead of recreating it")
    requireOperation R db (targetEnvironment db original.serverAgent original.managedSite)
      original.operationType original.payloadJson none
    checkBlankCreation services original.operationType original.serverAgent original.bench payload db
    return payload
  | _ => .error (.python "payload_json")

/-- The documents of the requesters, none of which has a site. -/
def requesterDocuments (mayWrite : Bool) : List String → EStateM Exc Session (List Customer)
  | [] => pure []
  | name :: rest => do
    let document ← getDoc "Customer" fun db => Table.get? db.customers name
    Transaction.query fun _ => ensure mayWrite (.permission "Customer")
    Transaction.query fun _ => ensure (!truthy document.managedSite)
      (.validation "Customer already has a Managed Site")
    let documents ← requesterDocuments mayWrite rest
    return document :: documents

/-- The part of `retry_operation` that authors the successor. -/
def authorSuccessor (request : RetryRequest) (customers : List String)
    (original : ControllerOperation) : EStateM Exc Session Requested := do
  let payload ← read (checkRetry R services original)
  let documents ← requesterDocuments request.mayWrite customers
  let authored ← author R services.validatePayload {
    operationId := request.uuid4, operationType := original.operationType
    serverAgent := original.serverAgent, bench := original.bench
    managedSite := original.managedSite, payload, retryOf := some original.name }
    request.actor request.insertion
  Transaction.forEach (fun document =>
    setSiteOperation request.insertion.now document authored.operationId) documents
  enqueueIfApproved R services.commandLifetime authored request.insertion.now

/-- `retry_operation`: the Customers and the operation are locked before its successor is looked
for among the committed rows. -/
def retryOperation (request : RetryRequest) : EStateM Exc Session Requested := do
  read fun db => requireAuthor db request.actor
  let original ← getDoc "Controller Operation" (·.operation? request.operationId)
  Transaction.query fun _ => ensure request.mayRead (.permission "Controller Operation")
  read fun db => ensure (original.requestedBy == request.actor
      || (getRoles db request.actor).contains "Controller Admin")
    (.permission "Only the requester or Controller Admin may retry an operation")
  let customers ← readForUpdate fun db => .ok (requesters db original.name)
  asValidation do
    Transaction.query fun _ => validateRetrySource refused original request.recoveryConfirmed
    match ← readForUpdate fun db => .ok (successor? db original.name) with
    | some existing => return ⟨existing.name, existing.state⟩
    | none => authorSuccessor R services request customers original

end OperationRequests

end FrappeController
