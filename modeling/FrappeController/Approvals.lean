import FrappeController.FeatureFlags
import FrappeController.Library.Snapshot
import FrappeController.Security

/-!
# `operation_approval.py`, `bulk_operation_approval.py`: decision rows

A decision request inserts one row; the row's `after_insert` counts the approved rows it can
see and writes the count and the approval status on the parent. Each request is a list of
statements over the snapshot of its transaction: the endpoint's checks, the row's checks, the
insertion, and the count with the write that follows it.
-/

namespace FrappeController

/-- `frappe.get_roles(user)` -/
def getRoles (db : Database) (user : String) : List String := (db.roles.lookup user).getD []

namespace Approvals

open Snapshot (Statement)

/-- A decision of the user `actor`; `name` is the name the row will get. -/
structure Request where
  actor : String
  parent : String
  decision : Decision
  comment : Option String
  now : DateTime
  name : String

variable (R : Runtime)

/-- `not actor or actor == "Guest" or "Approver" not in frappe.get_roles(actor)` -/
def requireApprover (db : Database) (actor : String) : Except Exc Unit :=
  ensure (actor != "" && actor != "Guest" && (getRoles db actor).contains "Approver")
    (.permission "Approver role is required")

/-- A statement that only reads. -/
def check (f : Database → Except Exc Unit) : Statement Exc Database := fun db =>
  (f db).map fun _ => id

/-! ## Decisions on operations -/

namespace OperationApproval

/-- The checks of `decide_operation`. -/
def authorize (request : Request) (db : Database) : Except Exc Unit := do
  requireApprover db request.actor
  ensure ((strip ((request.comment.getD "").toList)).length ≤ 1000)
    (.validation "Approval comment is invalid")
  match db.operation? request.parent with
  | none => .error (.doesNotExist "Operation does not exist")
  | some operation =>
    ensure (operation.approvalStatus == .pending)
      (.validation "Operation is not accepting approvals")
    ensure (operation.requestedBy != request.actor)
      (.permission "An operation requester cannot approve their own operation")

/-- The text a decision hash is taken over. -/
def body (a : FrappeController.OperationApproval) : Json :=
  .obj [("operation", .str a.operation), ("policy", .str a.approvalPolicy),
    ("decision", .str a.decision.text), ("approver", .str a.approver),
    ("decided_at", .str a.decidedAt.str), ("comment", .str a.comment),
    ("payload_hash", .str a.payloadHashSnapshot), ("target_key", .str a.targetKeySnapshot),
    ("preview_result_hash", Json.ofOption a.previewResultHashSnapshot)]

/-- `db.get_value("Operation Target", {"operation": operation}, "target_key")` -/
def targetKey? (db : Database) (operation : String) : Option String :=
  (db.operationTargets.find? fun t => t.operation == operation).map (·.targetKey)

/-- The document of a request, as `before_insert` completes it. -/
def document (request : Request) (db : Database) :
    Except Exc FrappeController.OperationApproval :=
  match db.operation? request.parent, orNone (targetKey? db request.parent) with
  | some operation, some targetKey =>
    match operation.approvalPolicy with
    | none => .error (.validation "approval_policy is mandatory")
    | some approvalPolicy =>
      let a : FrappeController.OperationApproval := {
        name := request.name, operation := operation.name, approvalPolicy
        decision := request.decision, approver := request.actor, decidedAt := request.now
        comment := String.ofList (strip ((request.comment.getD "").toList))
        payloadHashSnapshot := operation.payloadHash, targetKeySnapshot := targetKey
        previewResultHashSnapshot := operation.previewResultHash, decisionHash := "" }
      .ok { a with decisionHash := R.sha256 (R.dumps (body a)) }
  | _, _ => .error (.validation "Operation approval target does not exist")

/-- `OperationApproval.validate` of a new row. -/
def validate (a : FrappeController.OperationApproval) (db : Database) : Except Exc Unit := do
  requireSha256 (some a.decisionHash) "decision_hash"
  requireSha256 (some a.payloadHashSnapshot) "payload_hash_snapshot"
  ensure (a.targetKeySnapshot != "") (.validation "Approval target key snapshot is invalid")
  ensure (!truthy a.previewResultHashSnapshot
      || (a.previewResultHashSnapshot.map isSha256).getD false)
    (.validation "preview_result_hash_snapshot must be a lowercase SHA-256 digest")
  ensure ((getRoles db a.approver).contains "Approver") (.permission "Approver role is required")
  match db.operation? a.operation with
  | none => .error (.validation "Approval policy does not match the operation")
  | some operation =>
    ensure (operation.approvalPolicy == some a.approvalPolicy)
      (.validation "Approval policy does not match the operation")
    ensure (operation.requestedBy != a.approver)
      (.permission "An operation requester cannot approve their own operation")
    requireOperation R db (targetEnvironment db operation.serverAgent operation.managedSite)
      operation.operationType operation.payloadJson operation.bulkParent
    ensure (operation.approvalStatus == .pending)
      (.validation "Operation is not accepting approvals")
    ensure (operation.payloadHash == a.payloadHashSnapshot
        && operation.previewResultHash == a.previewResultHashSnapshot
        && targetKey? db a.operation == some a.targetKeySnapshot)
      (.validation "Approval snapshot does not match the operation")
    ensure (!db.operationApprovals.any fun b =>
        b.operation == a.operation && b.approver == a.approver)
      (.duplicateEntry "Each approver may decide only once")

def insert (a : FrappeController.OperationApproval) (db : Database) : Database :=
  { db with operationApprovals := db.operationApprovals ++ [a] }

/-- `db.count("Operation Approval", {"operation": operation, "decision": "approved"})` -/
def approvedCount (db : Database) (operation : String) : ℕ :=
  (db.operationApprovals.filter fun a =>
    a.operation == operation && a.decision == .approved).length

/-- The columns `after_insert` writes for an approval it counted as the `approved`-th. -/
def recordApproval (approved : ℕ) (required : ℤ) (op : ControllerOperation) :
    ControllerOperation :=
  { op with
    approvalCount := approved
    approvalStatus := if required ≤ approved then .approved else op.approvalStatus }

/-- `OperationApproval.after_insert` -/
def afterInsert (operation : String) (decision : Decision) : Statement Exc Database := fun db =>
  match decision with
  | .rejected => .ok fun db =>
    db.setOperation operation fun op => { op with approvalStatus := .rejected }
  | .approved =>
    let required := ((db.operation? operation).map (·.requiredApprovals)).getD 0
    let approved := approvedCount db operation
    .ok fun db => db.setOperation operation (recordApproval approved required)

/-- `decide_operation` -/
def decide (request : Request) : List (Statement Exc Database) :=
  [check (authorize request),
    check fun db => do validate R (← document R request db) db,
    fun db => (document R request db).map insert,
    afterInsert request.parent request.decision]

end OperationApproval

/-! ## Decisions on bulk operations -/

namespace BulkOperationApproval

/-- The name of the parent a request means: its UUID in canonical form. -/
def parentName (request : Request) : Except Exc String :=
  match R.uuid request.parent with
  | none => .error (.validation "bulk operation id must be a UUID")
  | some canonical =>
    if canonical = R.lower request.parent then .ok canonical
    else .error (.validation "bulk operation id must be canonical")

/-- The checks of `decide_bulk_operation`, in the endpoint and in the service. -/
def authorize (request : Request) (db : Database) : Except Exc Unit := do
  requireApprover db request.actor
  let parent ← parentName R request
  ensure (bulkParentEnabled db parent) (.permission "Controller feature is disabled")
  let comment := (request.comment.getD "").toList
  ensure (utf8Length comment ≤ 2000 && !comment.contains (Char.ofNat 0))
    (.validation "bulk approval comment is invalid")
  ensure (truthy ((db.bulkOperation? parent).map (·.approvalPolicy)))
    (.validation "bulk operation does not exist")

/-- The text a decision hash is taken over. -/
def body (a : FrappeController.BulkOperationApproval) : Json :=
  .obj [("bulk_operation", .str a.bulkOperation), ("approval_policy", .str a.approvalPolicy),
    ("decision", .str a.decision.text), ("approver", .str a.approver),
    ("decided_at", .str a.decidedAt.str), ("comment", .str a.comment),
    ("snapshot_hash", .str a.snapshotHash), ("payload_hash", .str a.payloadHash),
    ("dry_run_hash", .str a.dryRunHash)]

/-- The document of a request, as `before_insert` completes it. -/
def document (request : Request) (db : Database) :
    Except Exc FrappeController.BulkOperationApproval := do
  match db.bulkOperation? (← parentName R request) with
  | none => .error (.validation "Bulk Operation does not exist")
  | some parent =>
    let a : FrappeController.BulkOperationApproval := {
      name := request.name, bulkOperation := parent.name, approvalPolicy := parent.approvalPolicy
      decision := request.decision, approver := request.actor, decidedAt := request.now
      comment := request.comment.getD "", snapshotHash := parent.snapshotHash
      payloadHash := parent.payloadHash, dryRunHash := parent.dryRunHash, decisionHash := "" }
    .ok { a with decisionHash := R.sha256 (R.dumps (body a)) }

/-- `BulkOperationApproval.validate` of a new row. -/
def validate (a : FrappeController.BulkOperationApproval) (db : Database) : Except Exc Unit := do
  requireSha256 (some a.snapshotHash) "snapshot_hash"
  requireSha256 (some a.payloadHash) "payload_hash"
  requireSha256 (some a.dryRunHash) "dry_run_hash"
  requireSha256 (some a.decisionHash) "decision_hash"
  ensure ((getRoles db a.approver).contains "Approver") (.permission "Approver role is required")
  match db.bulkOperation? a.bulkOperation with
  | none => .error (.validation "Approval policy does not match Bulk Operation")
  | some parent =>
    ensure (parent.approvalPolicy == a.approvalPolicy)
      (.validation "Approval policy does not match Bulk Operation")
    ensure (parent.requestedBy != a.approver)
      (.permission "Bulk operation requester cannot approve their own request")
    ensure (parent.approvalStatus == .pending && parent.state == .awaitingApproval)
      (.validation "Bulk Operation is not accepting approvals")
    ensure (parent.snapshotHash == a.snapshotHash && parent.payloadHash == a.payloadHash
        && parent.dryRunHash == a.dryRunHash)
      (.validation "Bulk approval evidence binding changed")
    ensure (!db.bulkApprovals.any fun b =>
        b.bulkOperation == a.bulkOperation && b.approver == a.approver)
      (.duplicateEntry "Each approver may decide only once")

def insert (a : FrappeController.BulkOperationApproval) (db : Database) : Database :=
  { db with bulkApprovals := db.bulkApprovals ++ [a] }

/-- `db.count("Bulk Operation Approval", {"bulk_operation": parent, "decision": "approved"})` -/
def approvedCount (db : Database) (parent : String) : ℕ :=
  (db.bulkApprovals.filter fun a => a.bulkOperation == parent && a.decision == .approved).length

/-- The columns `after_insert` writes for an approval it counted as the `approved`-th. Only
here does the parent change state, too. -/
def recordApproval (approved : ℕ) (required : ℤ) (now : DateTime) (parent : BulkOperation) :
    BulkOperation :=
  if required ≤ approved then
    { parent with
      approvalCount := approved, approvalStatus := .approved, state := .approved
      approvedAt := some now }
  else { parent with approvalCount := approved }

/-- `BulkOperationApproval.after_insert` -/
def afterInsert (parent : String) (decision : Decision) (now : DateTime) :
    Statement Exc Database := fun db =>
  match decision with
  | .rejected => .ok fun db => db.setBulkOperation parent fun p =>
    { p with approvalStatus := .rejected, state := .rejected }
  | .approved =>
    let required := ((db.bulkOperation? parent).map (·.requiredApprovals)).getD 0
    let approved := approvedCount db parent
    .ok fun db => db.setBulkOperation parent (recordApproval approved required now)

/-- `decide_bulk_operation` -/
def decide (request : Request) : List (Statement Exc Database) :=
  [check (authorize R request),
    check fun db => do validate (← document R request db) db,
    fun db => (document R request db).map insert,
    fun db => do afterInsert (← parentName R request) request.decision request.now db]

end BulkOperationApproval

end Approvals

end FrappeController
