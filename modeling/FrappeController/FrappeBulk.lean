import FrappeController.BulkDocuments
import FrappeController.BulkOrchestrator

/-!
# `frappe_bulk_orchestration.py`: the bulk repository over the tables

`FrappeBulkRepository` gives the orchestrator the rows of the database, and
`reconcile_bulk_operations` runs it once for every parent that may progress, each behind a
savepoint. The pass is one transaction of the user `Administrator`: its plain reads see the version
committed when it began, with its own writes.
-/

namespace FrappeController
namespace Bulk

/-! ## Selectors from the database -/

theorem identifiers_eq_ok {name : String} {values : List Json} {texts : List String}
    (h : identifiers name values = .ok texts) :
    texts.length = values.length ∧ ∀ text ∈ texts, isId text = true := by
  induction values generalizing texts with
  | nil =>
    cases h
    exact ⟨rfl, fun text htext => absurd htext List.not_mem_nil⟩
  | cons value rest ih =>
    unfold identifiers at h
    split at h
    · cases h
    · obtain ⟨⟨⟩, hid, h⟩ := Transaction.bind_eq_ok.mp h
      obtain ⟨texts, hrest, h⟩ := Transaction.bind_eq_ok.mp h
      cases h
      have hmore := ih hrest
      refine ⟨congrArg (· + 1) hmore.1, List.forall_mem_cons.mpr ⟨?_, hmore.2⟩⟩
      exact ensure_eq_ok.mp hid

theorem identifiers_strings {name : String} {texts : List String}
    (h : ∀ text ∈ texts, isId text = true) : identifiers name (texts.map .str) = .ok texts := by
  induction texts with
  | nil => rfl
  | cons text rest ih =>
    rw [List.forall_mem_cons] at h
    have hid : identifier text name = .ok () := ensure_eq_ok.mpr h.1
    show (identifier text name >>= fun _ => identifiers name (rest.map .str) >>= fun texts =>
      pure (text :: texts)) = _
    rw [hid, ih h.2]
    rfl

/-- What `_unique` returns it leaves as it is. -/
theorem unique_again {values : List Json} {name : String} {maximum : ℕ} {texts : List String}
    (h : unique values name maximum = .ok texts) :
    unique (texts.map .str) name maximum = .ok texts := by
  obtain ⟨⟨⟩, hlength, h⟩ := Transaction.bind_eq_ok.mp h
  obtain ⟨normalized, hids, h⟩ := Transaction.bind_eq_ok.mp h
  obtain ⟨⟨⟩, hnodup, h⟩ := Transaction.bind_eq_ok.mp h
  cases h
  have hperm : (Inventory.sortTexts normalized).Perm normalized := List.perm_insertionSort _ _
  have hread := identifiers_eq_ok hids
  have hagain : identifiers name ((Inventory.sortTexts normalized).map .str)
      = .ok (Inventory.sortTexts normalized) :=
    identifiers_strings fun text htext => hread.2 text (hperm.mem_iff.mp htext)
  have hshort : ((Inventory.sortTexts normalized).map Json.str).length ≤ maximum := by
    rw [List.length_map, hperm.length_eq, hread.1]
    exact of_decide_eq_true (ensure_eq_ok.mp hlength)
  have hunique : (Inventory.sortTexts normalized).Nodup :=
    hperm.nodup_iff.mpr (of_decide_eq_true (ensure_eq_ok.mp hnodup))
  have hsorted : Inventory.sortTexts (Inventory.sortTexts normalized)
      = Inventory.sortTexts normalized :=
    (List.pairwise_insertionSort _ _).insertionSort_eq
  have hreturned : (ensure (decide (Inventory.sortTexts normalized).Nodup)
      (.bulkContract ("duplicate " ++ name)) >>= fun _ =>
        pure (Inventory.sortTexts (Inventory.sortTexts normalized)))
      = Except.ok (Inventory.sortTexts normalized) :=
    Transaction.bind_eq_ok.mpr
      ⟨(), ensure_eq_ok.mpr (decide_eq_true hunique), congrArg Except.ok hsorted⟩
  exact Transaction.bind_eq_ok.mpr ⟨(), ensure_eq_ok.mpr (decide_eq_true hshort),
    Transaction.bind_eq_ok.mpr ⟨_, hagain, hreturned⟩⟩

theorem selectorEnvironment_again {value : Json} {environment : Option String}
    (h : selectorEnvironment value = .ok environment) :
    selectorEnvironment (Json.ofOption environment) = .ok environment := by
  unfold selectorEnvironment at h
  split at h
  · cases h
    rfl
  · rename_i text
    split at h
    · rename_i hknown
      cases h
      exact if_pos hknown
    · cases h
  · cases h
  · cases h
  · cases h

theorem selectorPostInit_again {a : SelectorArguments} {fields : SelectorFields}
    (h : selectorPostInit a = .ok fields) : selectorPostInit fields.arguments = .ok fields := by
  obtain ⟨exactSiteIds, hsites, h⟩ := Transaction.bind_eq_ok.mp h
  obtain ⟨agentIds, hagents, h⟩ := Transaction.bind_eq_ok.mp h
  obtain ⟨benchIds, hbenches, h⟩ := Transaction.bind_eq_ok.mp h
  obtain ⟨labels, hlabels, h⟩ := Transaction.bind_eq_ok.mp h
  obtain ⟨environment, henvironment, h⟩ := Transaction.bind_eq_ok.mp h
  obtain ⟨⟨⟩, hselective, h⟩ := Transaction.bind_eq_ok.mp h
  cases h
  exact Transaction.bind_eq_ok.mpr ⟨_, unique_again hsites, Transaction.bind_eq_ok.mpr
    ⟨_, unique_again hagents, Transaction.bind_eq_ok.mpr ⟨_, unique_again hbenches,
      Transaction.bind_eq_ok.mpr ⟨_, unique_again hlabels, Transaction.bind_eq_ok.mpr
        ⟨_, selectorEnvironment_again henvironment,
          Transaction.bind_eq_ok.mpr ⟨⟨⟩, hselective, rfl⟩⟩⟩⟩⟩⟩

/-- `BulkSelector(...)` -/
def SelectorArguments.new (a : SelectorArguments) : Except Exc BulkSelector :=
  match h : selectorPostInit a with
  | .ok fields => .ok ⟨fields, selectorPostInit_again h⟩
  | .error e => .error e

end Bulk

namespace FrappeBulk

open Bulk BulkOrchestrator BulkDocuments OperationDocuments
open FrappeInventory (Session read readForUpdate write)

/-! ## Reads -/

/-- `order_by="ordinal asc, attempt asc"` -/
def before (a b : BulkOperationTarget) : Bool :=
  a.ordinal < b.ordinal || (a.ordinal == b.ordinal && a.attempt ≤ b.attempt)

/-- `latest[ordinal] = row`, unless the row found there is of a later attempt. -/
def keepLatest (latest : List BulkOperationTarget) (row : BulkOperationTarget) :
    List BulkOperationTarget :=
  match latest.find? fun r => r.ordinal == row.ordinal with
  | none => latest ++ [row]
  | some previous =>
    if previous.attempt < row.attempt then
      latest.map fun r => if r.ordinal == row.ordinal then row else r
    else latest

/-- `_rows`: the last attempt at each of the parent's targets. -/
def rows (db : Database) (parentId : String) : List BulkOperationTarget :=
  let selected := ((db.bulkTargets.filter fun t => t.bulkOperation == parentId).insertionSort
    fun a b => before a b).take 1001
  (selected.foldl keepLatest []).insertionSort fun a b => a.ordinal ≤ b.ordinal

/-- The snapshot columns of a row. -/
def snapshotFields (row : BulkOperationTarget) : TargetFields where
  ordinal := row.ordinal
  agentId := row.agentIdSnapshot
  benchId := row.benchIdSnapshot
  siteId := row.siteIdSnapshot
  siteDomain := row.siteDomainSnapshot
  environment := row.environmentSnapshot
  inventoryRevision := row.inventoryRevision

/-- `_runtime_target` -/
def runtimeTarget (row : BulkOperationTarget) : Except Exc BulkTargetRuntime := do
  let snapshot ← (snapshotFields row).new
  return {
    snapshot, state := row.state, childOperationId := orNone row.childOperation
    attempt := row.attempt, cancellationSent := truthy row.cancellationOperation }

/-- `targets` -/
def targets (db : Database) (parentId : String) : Except Exc (List BulkTargetRuntime) :=
  (rows db parentId).mapM runtimeTarget

variable (R : Runtime)

/-- `tuple(value)` of a decoded value. -/
def tupleOf : Json → Except Exc (List Json)
  | .arr items => .ok items
  | .str s => .ok (s.toList.map fun c => .str c.toString)
  | .obj fields => .ok (fields.map fun f => .str f.1)
  | _ => .error (.python "TypeError")

/-- `tuple(selector_value.get(key, ()))` -/
def tupleField (fields : List (String × Json)) (key : String) : Except Exc (List Json) :=
  match fields.lookup key with
  | none => .ok []
  | some value => tupleOf value

/-- The selector of the parent. -/
def parentSelector (fields : List (String × Json)) : Except Exc BulkSelector := do
  let exactSiteIds ← tupleField fields "exact_site_ids"
  let agentIds ← tupleField fields "agent_ids"
  let benchIds ← tupleField fields "bench_ids"
  let labels ← tupleField fields "labels"
  let arguments : SelectorArguments :=
    { exactSiteIds, environment := Json.get fields "environment", agentIds, benchIds, labels }
  arguments.new

/-- The policy columns of the parent. -/
def policyFields (parent : BulkOperation) : PolicyFields where
  maximumTargets := parent.maximumTargets
  canarySize := parent.canarySize
  globalConcurrency := parent.globalConcurrency
  perAgentConcurrency := parent.perAgentConcurrency
  perBenchConcurrency := parent.perBenchConcurrency
  maximumFailures := parent.maximumFailures
  maximumFailureRatio := parent.maximumFailureRatio

/-- The plan the rows of the parent describe. -/
def parentPlan (db : Database) (parent : BulkOperation) (fields : List (String × Json)) :
    Except Exc BulkPlan := do
  let selector ← parentSelector fields
  let targets ← targets db parent.name
  let policy ← (policyFields parent).new
  PlanFields.new {
    parentOperationId := parent.bulkOperationId, operationType := parent.operationType
    payloadHash := parent.payloadHash, selector, targets := targets.map (·.snapshot)
    dryRunHash := parent.dryRunHash, policy, retryOf := orNone parent.retryOf }

def corrupt : Exc := .bulkOrchestration "bulk parent contract is corrupt"

/-- `except (TypeError, ValueError, json.JSONDecodeError)` -/
def orCorrupt {α : Type} (x : Except Exc α) : Except Exc α := x.mapError fun _ => corrupt

/-- `json.loads(parent.selector_json)`, of which `.get` is called: what is not an object has
none. -/
def selectorValue (parent : BulkOperation) : Except Exc (List (String × Json)) :=
  match R.loads parent.selectorJson with
  | none => .error corrupt
  | some (.obj fields) => .ok fields
  | some _ => .error (.python "AttributeError")

/-- The row of a parent. -/
def parentRow (db : Database) (parentId : String) : Except Exc BulkOperation :=
  match db.bulkOperation? parentId with
  | none => .error (.bulkOrchestration "bulk parent does not exist")
  | some parent => .ok parent

/-- `_parent_runtime` -/
def parentRuntime (db : Database) (parentId : String) : Except Exc BulkParentRuntime := do
  let parent ← parentRow db parentId
  let fields ← selectorValue R parent
  let plan ← orCorrupt (parentPlan db parent fields)
  ensure (canonicalBulkHash R plan == parent.snapshotHash)
    (.bulkOrchestration "bulk parent snapshot hash changed")
  return {
    parentId, plan, state := parent.state, pauseRequested := parent.pauseRequested
    cancelRequested := parent.cancelRequested }

/-- `lock_parent`: the row is locked, and what is read of it is a plain read. -/
def lockParent (parentId : String) (s : Session) : Except Exc BulkParentRuntime := do
  let _ ← parentRow s.current parentId
  parentRuntime R s.view parentId

/-- `_ACTIVE` -/
def active : OperationState → Bool
  | .queued | .leased | .running => true
  | _ => false

/-- The agent and the bench an operation is in flight on. -/
def inflightOn (db : Database) (op : ControllerOperation) : Option (String × String) := do
  let agent ← Table.get? db.agents op.serverAgent
  let bench ← Table.get? db.benches op.bench
  if active op.state then some (agent.agentId, bench.benchId) else none

/-- The operations in flight, by agent and bench. -/
def inflight (db : Database) : List (String × String) := db.operations.filterMap (inflightOn db)

/-- `inflight_counts` -/
def inflightCounts (db : Database) : InflightCounts where
  globalCount := (inflight db).length
  byAgent agent := (inflight db).countP fun on => on.1 == agent
  byBench bench := (inflight db).count bench

/-- `can_start` -/
def canStart (target : BulkTargetRuntime) (db : Database) : Bool :=
  match FrappeInventory.agent? db target.snapshot.agentId with
  | none => false
  | some agent => agent.enabled && !agent.drainRequested
      && db.featureConfig.enabled "bulk_operations" target.snapshot.environment

/-- `_target_row` -/
def targetRow (parentId : String) (target : BulkTargetRuntime) (db : Database) :
    Except Exc BulkOperationTarget :=
  match db.bulkTargets.find? fun t => t.bulkOperation == parentId
      && t.targetKey == target.snapshot.targetKey && t.attempt == target.attempt with
  | none => .error (.bulkOrchestration "bulk target disappeared")
  | some row => .ok row

/-! ## Children -/

/-- What the passes of the deployment take from outside: the lifetime of commands, the clock at the
write of each row, and the random name of the target of each operation. -/
structure Environment where
  lifetime : ℕ
  clock : String → DateTime
  targetName : String → String

variable (E : Environment)

/-- The text an operation target's key is the hash of. -/
def targetIdentity (parts : List Json) : Text := R.dumps (.arr parts)

/-- The children of this parent may be created, and this target has none yet. -/
def eligibleChild (parentId : String) (target : BulkTargetRuntime) (db : Database) :
    Except Exc (BulkOperation × BulkOperationTarget) := do
  let row ← targetRow parentId target db
  match db.bulkOperation? parentId with
  | none => .error (.bulkOrchestration "bulk child is not eligible for creation")
  | some parent => do
    ensure (parent.approvalStatus == .approved
        && [BulkState.approved, .canary, .running].contains parent.state && row.state == .planned)
      (.bulkOrchestration "bulk child is not eligible for creation")
    return (parent, row)

/-- The operation of a new child. -/
def childDocument (parent : BulkOperation) (row : BulkOperationTarget) (childId key : String)
    (db : Database) : ControllerOperation where
  name := childId
  operationId := childId
  idempotencyKey := key
  protocolVersion := "1.0"
  serverAgent := row.serverAgent
  bench := row.bench
  managedSite := some row.managedSite
  bulkParent := some parent.name
  bulkTarget := some row.name
  retryOf := previousChild row db
  previewOf := row.previewOperation
  previewResultHash := row.previewResultHash
  operationType := parent.operationType
  payloadJson := parent.payloadJson
  payloadHash := parent.payloadHash
  requestedBy := parent.requestedBy
  approvalPolicy := some parent.approvalPolicy
  approvalStatus := .approved
  requiredApprovals := parent.requiredApprovals
  approvalCount := parent.approvalCount
  state := .awaitingApproval
  commandJson := none
  commandHash := none
  issuedAt := none
  expiresAt := none
  leaseExpiresAt := none
  lastEventSequence := 0
  resultJson := none
  resultHash := none
  credentialReceivedAt := none
  errorCode := none
  startedAt := none
  completedAt := none
  creation := E.clock childId

/-- The target of a new child. -/
def childTarget (parent : BulkOperation) (row : BulkOperationTarget) (target : BulkTargetRuntime)
    (childId : String) (db : Database) : OperationTarget where
  name := E.targetName childId
  operation := childId
  targetKey := R.sha256 (targetIdentity R [.str childId, .str target.snapshot.agentId,
    .str target.snapshot.benchId, .str row.managedSite, .str target.snapshot.inventoryRevision])
  serverAgent := row.serverAgent
  bench := row.bench
  managedSite := some row.managedSite
  bulkParent := some parent.name
  bulkTarget := some row.name
  retryOf := (previousChild row db).bind fun child => (targetOf? db child).map (·.name)
  siteDomainSnapshot := some target.snapshot.siteDomain
  operationTypeSnapshot := parent.operationType
  payloadHashSnapshot := parent.payloadHash
  inventoryRevisionSnapshot := some target.snapshot.inventoryRevision
  state := .awaitingApproval
  attempt := target.attempt.toNat
  resultJson := none
  errorCode := none

/-- `get_doc("Bulk Operation Target", name)` -/
def bulkTargetDocument (name : String) (db : Database) : Except Exc BulkOperationTarget :=
  match db.bulkTarget? name with
  | none => .error (.doesNotExist "Bulk Operation Target")
  | some t => .ok t

/-- `enqueue_approved_operation` of one of the pass's operations. -/
def enqueue (name : String) : EStateM Exc Session Unit := do
  let _ ← enqueueApprovedOperation R E.lifetime name (E.clock name)

/-- The part of `create_child` for a target without a child: both documents are inserted, linked to
the target and dispatched. -/
def startChild (parent : BulkOperation) (row : BulkOperationTarget) (target : BulkTargetRuntime)
    (childId key : String) : EStateM Exc Session Unit := do
  let op ← read fun db => .ok (childDocument E parent row childId key db)
  let t ← read fun db => .ok (childTarget R E parent row target childId db)
  insertOperation R "Administrator" false op
  insertTarget t
  let document ← read (bulkTargetDocument row.name)
  saveBulkTarget R { document with childOperation := some childId }
  enqueue R E childId
  write fun db => db.setBulkTarget row.name fun t => { t with state := .child .queued }

/-- `create_child` -/
def createChild (parentId : String) (target : BulkTargetRuntime) (childId key : String) :
    EStateM Exc Session Unit := do
  let found ← read (eligibleChild parentId target)
  if truthy found.2.childOperation then
    if found.2.childOperation = some childId then enqueue R E childId
    else throw (.bulkOrchestration "bulk target is linked to another child")
  else startChild R E found.1 found.2 target childId key

/-! ## Cancellations -/

/-- `uuid5(uuid5(NAMESPACE_URL, "frappe-controller:bulk-cancel:{parent_id}"), child)` -/
def cancellationId (parentId child : String) : String :=
  R.uuid5 (R.uuid5 namespaceUrl ("frappe-controller:bulk-cancel:" ++ parentId)) child

/-- The cancellation was asked for, and the target has a child that is not finished. -/
def cancellable (parentId : String) (target : BulkTargetRuntime) (db : Database) :
    Except Exc (String × BulkOperationTarget × String) := do
  let row ← targetRow parentId target db
  match (db.bulkOperation? parentId).map fun parent =>
      (parent.cancelRequested, orNone parent.cancelRequestedBy) with
  | some (true, some user) =>
    match orNone row.childOperation with
    | none => .error (.bulkOrchestration "bulk target is not cancellable")
    | some child => do
      ensure (!row.state.terminal) (.bulkOrchestration "bulk target is not cancellable")
      return (user, row, child)
  | _ => .error (.bulkOrchestration "bulk cancellation is not attributed")

/-- The payload of a cancellation. -/
def cancelPayload (child : String) : Text := R.dumps (.obj [("target_operation_id", .str child)])

/-- The inventory digest of the target's agent. -/
def currentRevision (row : BulkOperationTarget) (db : Database) : Except Exc String :=
  match (Table.get? db.agents row.serverAgent).bind (·.inventoryDigest) with
  | none => .error (.bulkOrchestration "bulk cancellation target inventory is unavailable")
  | some revision => do
    ensure (isSha256 revision)
      (.bulkOrchestration "bulk cancellation target inventory is unavailable")
    return revision

/-- The operation of a cancellation. -/
def cancelDocument (user : String) (row : BulkOperationTarget) (child cancellation : String) :
    ControllerOperation where
  name := cancellation
  operationId := cancellation
  idempotencyKey := "controller:bulk-cancel:" ++ cancellation
  protocolVersion := "1.0"
  serverAgent := row.serverAgent
  bench := row.bench
  managedSite := some row.managedSite
  bulkParent := none
  bulkTarget := none
  retryOf := none
  previewOf := none
  previewResultHash := none
  operationType := "operation.cancel"
  payloadJson := cancelPayload R child
  payloadHash := R.sha256 (cancelPayload R child)
  requestedBy := user
  approvalPolicy := none
  approvalStatus := .notRequired
  requiredApprovals := 0
  approvalCount := 0
  state := .awaitingApproval
  commandJson := none
  commandHash := none
  issuedAt := none
  expiresAt := none
  leaseExpiresAt := none
  lastEventSequence := 0
  resultJson := none
  resultHash := none
  credentialReceivedAt := none
  errorCode := none
  startedAt := none
  completedAt := none
  creation := E.clock cancellation

/-- The target of a cancellation. -/
def cancelTargetDocument (row : BulkOperationTarget) (target : BulkTargetRuntime)
    (child cancellation revision : String) : OperationTarget where
  name := E.targetName cancellation
  operation := cancellation
  targetKey := R.sha256 (targetIdentity R [.str cancellation, .str target.snapshot.agentId,
    .str target.snapshot.benchId, .str row.managedSite, .str revision])
  serverAgent := row.serverAgent
  bench := row.bench
  managedSite := some row.managedSite
  bulkParent := none
  bulkTarget := none
  retryOf := none
  siteDomainSnapshot := some target.snapshot.siteDomain
  operationTypeSnapshot := "operation.cancel"
  payloadHashSnapshot := R.sha256 (cancelPayload R child)
  inventoryRevisionSnapshot := some revision
  state := .awaitingApproval
  attempt := 0
  resultJson := none
  errorCode := none

/-- The part of `request_child_cancel` for a target without a cancellation. -/
def startCancel (user : String) (row : BulkOperationTarget) (target : BulkTargetRuntime)
    (child cancellation : String) : EStateM Exc Session Unit := do
  let revision ← read (currentRevision row)
  insertOperation R "Administrator" false (cancelDocument R E user row child cancellation)
  insertTarget (cancelTargetDocument R E row target child cancellation revision)
  let document ← read (bulkTargetDocument row.name)
  saveBulkTarget R { document with cancellationOperation := some cancellation }
  enqueue R E cancellation

/-- `request_child_cancel` -/
def requestChildCancel (parentId : String) (target : BulkTargetRuntime) :
    EStateM Exc Session Unit := do
  let found ← read (cancellable parentId target)
  let cancellation := cancellationId R parentId found.2.2
  if truthy found.2.1.cancellationOperation then
    if found.2.1.cancellationOperation = some cancellation then pure ()
    else throw (.bulkOrchestration "bulk cancellation identity changed")
  else startCancel R E found.1 found.2.1 target found.2.2 cancellation

/-- The row of a target that was not started. -/
def unstarted (parentId : String) (target : BulkTargetRuntime) (db : Database) :
    Except Exc BulkOperationTarget := do
  let row ← targetRow parentId target db
  ensure (!truthy row.childOperation && row.state == .planned)
    (.bulkOrchestration "only an unstarted bulk target can be cancelled locally")
  return row

/-- `mark_unstarted_cancelled` -/
def markUnstartedCancelled (parentId : String) (target : BulkTargetRuntime) :
    EStateM Exc Session Unit := do
  let row ← read (unstarted parentId target)
  write fun db => db.setBulkTarget row.name fun t => { t with state := .child .cancelled }

/-! ## Progress -/

/-- The columns `update_parent` writes. -/
def recordProgress (now : DateTime) (state : BulkState) (aggregate : BulkAggregate)
    (parent : BulkOperation) : BulkOperation :=
  { parent with
    state
    plannedCount := aggregate.planned
    queuedCount := aggregate.queued
    runningCount := aggregate.running
    succeededCount := aggregate.succeeded
    failedCount := aggregate.failed
    cancelledCount := aggregate.cancelled
    needsInterventionCount := aggregate.needsIntervention
    startedAt := if [BulkState.canary, .running].contains state && parent.startedAt.isNone then
      some now else parent.startedAt
    completedAt := if [BulkState.succeeded, .partlySucceeded, .failed, .cancelled,
      .needsIntervention].contains state then some now else parent.completedAt }

/-- `get_doc("Bulk Operation", name)` -/
def bulkOperationDocument (name : String) (db : Database) : Except Exc BulkOperation :=
  match db.bulkOperation? name with
  | none => .error (.doesNotExist "Bulk Operation")
  | some parent => .ok parent

/-- `update_parent` -/
def updateParent (parentId : String) (state : BulkState) (aggregate : BulkAggregate) :
    EStateM Exc Session Unit := do
  let parent ← read (bulkOperationDocument parentId)
  saveBulkOperation R (recordProgress (E.clock parentId) state aggregate parent)

/-- `FrappeBulkRepository` -/
def repository : BulkRepository Session where
  lockParent := lockParent R
  targets parentId s := targets s.view parentId
  inflightCounts s := .ok (inflightCounts s.view)
  canStart target s := .ok (canStart target s.view)
  createChild := createChild R E
  requestChildCancel := requestChildCancel R E
  markUnstartedCancelled := markUnstartedCancelled
  updateParent := updateParent R E

/-! ## The scheduler -/

/-- The states of the parents a pass goes through. -/
def reconcilable (state : BulkState) : Bool :=
  [BulkState.approved, .canary, .running, .paused, .cancelling].contains state

/-- The parents of a pass: the hundred created first. -/
def pending (db : Database) : List String :=
  (((db.bulkOperations.filter fun op => reconcilable op.state).insertionSort
    fun a b => a.creation.micros ≤ b.creation.micros).take 100).map (·.name)

/-- The columns of a parent that cannot progress safely. -/
def intervene (now : DateTime) (parent : BulkOperation) : BulkOperation :=
  { parent with state := .needsIntervention, completedAt := some now }

/-- One round of the loop: a `BulkOrchestrationError` rolls back to the savepoint before it. -/
def reconcileParent (name : String) : EStateM Exc Session Unit := fun s =>
  match reconcile (repository R E) R name s with
  | .ok _ s' => .ok () s'
  | .error e s' =>
    if e.isBulkOrchestrationError then
      write (fun db => db.setBulkOperation name (intervene (E.clock name))) s
    else .error e s'

/-- `reconcile_bulk_operations` -/
def reconcileBulkOperations : EStateM Exc Session Unit := do
  let names ← read fun db => .ok (pending db)
  Transaction.forEach (reconcileParent R E) names

/-- The answer to a pass whose plain reads see `view`, and the version it leaves behind. -/
def pass (view db : Database) : Except Exc Unit × Database :=
  match reconcileBulkOperations R E { view, current := db } with
  | .ok u session => (.ok u, session.current)
  | .error e _ => (.error e, db)

end FrappeBulk
end FrappeController
