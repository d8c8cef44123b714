import FrappeController.Dispatcher
import FrappeController.Ingestion

/-!
# `frappe_repository.py`: the ingestion repository over the tables

A request reads without locks and writes under the lock of its operation row. Its state is
therefore a pair: the committed versions its reads will see, one each, and the current
version its locked section works on.
-/

namespace FrappeController

/-- `Mapping.get(key)` on a decoded value. -/
def Json.getField (value : Json) (key : String) : Json :=
  match value with
  | .obj fields => Json.get fields key
  | _ => .null

namespace FrappeRepository

open Dispatcher (OperationRow)

/-! ## Requests -/

/-- The state of a request: the versions its next reads see, and the current version. A read
beyond the listed versions sees the current one. -/
structure Request where
  views : List Database
  current : Database

/-- A read without a lock. -/
def read {α : Type} (f : Database → Except Exc α) : EStateM Exc Request α := fun request =>
  match request.views with
  | [] => Transaction.query (fun request => f request.current) request
  | view :: rest => Transaction.query (fun _ => f view) { request with views := rest }

/-- A section under the row lock. -/
def locked {α : Type} (section' : DbM α) : EStateM Exc Request α := fun request =>
  match section' request.current with
  | .ok a db => .ok a { request with current := db }
  | .error e db => .error e { request with current := db }

/-! ## Reads -/

variable (R : Runtime)

/-- `{"site.create", "site.create_blank", "site.create_from_backup"}` -/
def isCreation (operationType : String) : Bool :=
  ["site.create", "site.create_blank", "site.create_from_backup"].contains operationType

/-- A row of the join `_operation_row` selects. -/
structure IngestionRow where
  op : ControllerOperation
  agentId : String
  benchId : String
  siteDomain : Option String
  requiredAppsJson : Option Text

/-- `_operation_row` -/
def operationRow? (db : Database) (operationId : String) : Option IngestionRow := do
  let op ← db.operations.find? fun op => op.operationId == operationId
  let agent ← Table.get? db.agents op.serverAgent
  let bench ← Table.get? db.benches op.bench
  let site := op.managedSite.bind (Table.get? db.sites)
  return {
    op, agentId := agent.agentId, benchId := bench.benchId, siteDomain := site.map (·.domain)
    requiredAppsJson := bench.requiredAppsJson }

/-- `_created_site_domain` -/
def createdSiteDomain (row : IngestionRow) : Option String :=
  if isCreation row.op.operationType then
    (R.loads row.op.payloadJson).bind fun payload => (payload.getField "domain").str?
  else row.siteDomain

/-- `operation` -/
def operation (db : Database) (operationId : String) : Option OperationIdentity :=
  (operationRow? db operationId).map fun row => {
    operationId := row.op.operationId, agentId := row.agentId, benchId := row.benchId
    siteDomain := createdSiteDomain R row, operationType := row.op.operationType
    state := row.op.state, lastEventSequence := row.op.lastEventSequence }

/-- `event` -/
def event (db : Database) (operationId : String) (sequence : ℕ) : Option StoredEvent :=
  (db.operationEvents.find? fun e => e.operationId == operationId && e.sequence == sequence).map
    fun e => { operationId := e.operationId, sequence := e.sequence, bodyHash := e.bodyHash }

/-- The result an operation stores, decoded for its status. -/
def storedResult (op : ControllerOperation) : Except Exc (Option StoredResult) :=
  match orNone op.resultHash with
  | none => .ok none
  | some bodyHash =>
    let resultJson := op.resultJson.getD "null".toList
    match ((R.loads resultJson).map (·.getField "status")).bind Json.str? with
    | none => .error (.ingestionConflict "stored result is invalid")
    | some status => .ok (some { operationId := op.operationId, status, bodyHash, resultJson })

/-- `result` -/
def result (db : Database) (operationId : String) : Except Exc (Option StoredResult) :=
  match operationRow? db operationId with
  | none => .ok none
  | some row => storedResult R row.op

/-! ## Events -/

/-- `OperationEvent.validate` of a new event. -/
def validateEvent (db : Database) (e : OperationEvent) : Except Exc Unit := do
  ensure (1 ≤ e.sequence) (.validation "Event sequence and attempt are invalid")
  requireOptionalJson R e.detailsJson "details_json"
  requireSha256 (some e.bodyHash) "body_hash"
  match db.operation? e.operation with
  | none => .error (.validation "Event operation identity does not match")
  | some op =>
    ensure (op.operationId == e.operationId)
      (.validation "Event operation identity does not match")
    match db.operationEvents.find? fun d =>
        d.operation == e.operation && d.sequence == e.sequence with
    | some duplicate =>
      if duplicate.bodyHash = e.bodyHash then
        .error (.duplicateEntry
          "Exact event duplicates must be resolved by the idempotent ingestion service")
      else .error (.validation "Event sequence conflicts with immutable history")
    | none =>
      ensure (e.sequence == op.lastEventSequence + 1)
        (.validation "Event sequence is not contiguous")

/-- `OperationEvent.after_insert`: the operation's cursor moves to the event. -/
def moveCursor (sequence : ℕ) (op : ControllerOperation) : ControllerOperation :=
  { op with lastEventSequence := sequence }

/-- The insertion of an event document. -/
def insertEvent (e : OperationEvent) : DbM Unit := do
  Transaction.query fun db => validateEvent R db e
  modify fun db => { db with operationEvents := db.operationEvents ++ [e] }
  modify fun db => db.setOperation e.operation (moveCursor e.sequence)

/-- The document `append_events` inserts for an event. -/
def eventDocument (operation operationId : String) (e : IngestedEvent) : OperationEvent where
  operation := operation
  operationId := operationId
  sequence := e.sequence
  attempt := e.attempt
  step := e.step
  kind := e.kind
  detailsJson := e.detailsJson
  bodyHash := e.bodyHash
  agentCreatedAt := e.agentCreatedAt
  receivedAt := e.receivedAt

/-- The insertion loop of `append_events`. -/
def insertEvents (operation operationId : String) : ℕ → List IngestedEvent → DbM ℕ
  | cursor, [] => pure cursor
  | cursor, e :: rest =>
    if e.sequence ≠ cursor + 1 then throw (.ingestionConflict "event gap")
    else do
      insertEvent R (eventDocument operation operationId e)
      insertEvents operation operationId e.sequence rest

/-- The number and the body hash of an event. -/
def numbered (e : OperationEvent) : ℕ × String := (e.sequence, e.bodyHash)

/-- The stored events of an operation, in insertion order. -/
def eventLog (db : Database) (operation : String) : List (ℕ × String) :=
  (db.operationEvents.filter fun e => e.operation == operation).map numbered

/-- The exact-replay case of `append_events`: another request has stored the same events and
the cursor stands at the last of them. -/
def replayed (db : Database) (operation : String) (cursor : ℕ) (events : List IngestedEvent) :
    Bool :=
  match events.head?, events.getLast? with
  | some first, some last =>
    cursor == last.sequence &&
      ((eventLog db operation).filter fun e =>
          decide (first.sequence ≤ e.1) && decide (e.1 ≤ last.sequence)).insertionSort
        (fun a b => a.1 ≤ b.1) == events.map fun e => (e.sequence, e.bodyHash)
  | _, _ => false

/-- `append_events` -/
def appendEvents (agentId operationId : String) (expectedLastSequence : ℕ)
    (events : List IngestedEvent) : DbM ℕ := do
  let db ← get
  match operationRow? db operationId with
  | none => throw (.ingestionOwnership "operation belongs to another agent")
  | some row =>
    if row.agentId ≠ agentId then
      throw (.ingestionOwnership "operation belongs to another agent")
    else if row.op.lastEventSequence ≠ expectedLastSequence then
      if replayed db row.op.name row.op.lastEventSequence events then
        return row.op.lastEventSequence
      else throw (.ingestionConflict "event cursor compare-and-set conflict")
    else do
      let cursor ← insertEvents R row.op.name operationId row.op.lastEventSequence events
      let db ← get
      if ((db.operation? row.op.name).map (·.lastEventSequence)).getD 0 = cursor then return cursor
      else throw (.ingestionConflict "event cursor commit conflict")

/-! ## Results -/

/-- `creation_handover_ready` -/
def creationHandoverReady (resultJson : Text) (credentialReceivedAt : Option DateTime)
    (expectedAppsJson : Text) : Bool :=
  let readiness := (((R.loads resultJson).getD .null).getField "result").getField "readiness"
  let isApp (s : String) : Bool :=
    Ingestion.identifier Ingestion.isLower
      (fun c => Ingestion.isLower c || Ingestion.isDigit c || c == '_') 64 s
  match readiness.getField "version", readiness.getField "apps_verified",
    readiness.getField "public_https_verified", readiness.getField "required_apps",
    (R.loads expectedAppsJson).getD .null with
  | .int 1, .bool true, .bool true, .arr apps, .arr expected =>
    let names := apps.filterMap Json.str?
    let expectedNames := expected.filterMap Json.str?
    credentialReceivedAt.isSome && names.length == apps.length && names.all isApp
      && names.contains "frappe" && decide names.Nodup
      && !expected.isEmpty && expectedNames.length == expected.length
      && expectedNames.all names.contains && names.all expectedNames.contains
  | _, _, _, _, _ => false

/-- The state and the error code a result is recorded with. A creation result without
handover evidence is refused, unless its agent predates that evidence: then the operation
is closed for intervention. -/
def recordedState (row : IngestionRow) (r : IngestedResult) :
    Except Exc (OperationState × Option String) :=
  if r.status = .succeeded ∧ isCreation row.op.operationType = true
      ∧ creationHandoverReady R r.resultJson row.op.credentialReceivedAt
        (row.requiredAppsJson.getD ['[', ']']) = false then
    match ((R.loads r.resultJson).getD .null).getField "result" with
    | .obj reported =>
      if (Json.keys reported).contains "readiness" then
        .error (.ingestionConflict ("site creation success requires app/public HTTPS evidence "
          ++ "and acknowledged credential delivery"))
      else .ok (.needsIntervention, some "site_handover_unverified")
    | _ =>
      .error (.ingestionConflict ("site creation success requires app/public HTTPS evidence "
        ++ "and acknowledged credential delivery"))
  else .ok (r.status, r.errorCode)

/-- The state a recorded status leaves a row in: `queued` only acknowledges receipt. -/
def stateAfter (previous state : OperationState) : OperationState :=
  if state = .queued then previous else state

/-- The columns a result writes on the operation. -/
def recordOperation (r : IngestedResult) (state : OperationState) (errorCode : Option String)
    (op : ControllerOperation) : ControllerOperation :=
  { op with
    resultJson := some r.resultJson, resultHash := some r.bodyHash, errorCode := errorCode
    state := stateAfter op.state state
    leaseExpiresAt := if state = .queued then op.leaseExpiresAt else none
    startedAt :=
      if state = .running ∧ op.state ≠ .running then some r.receivedAt else op.startedAt
    completedAt := if state.terminal then some r.receivedAt else op.completedAt }

/-- The columns a result writes on the operation's target. -/
def recordTarget (r : IngestedResult) (state : OperationState) (errorCode : Option String)
    (t : OperationTarget) : OperationTarget :=
  { t with
    resultJson := some r.resultJson, errorCode := errorCode
    state := stateAfter t.state state }

/-- The columns a result writes on the operation's bulk target. -/
def recordBulkTarget (r : IngestedResult) (state : OperationState) (errorCode : Option String)
    (t : BulkOperationTarget) : BulkOperationTarget :=
  { t with
    resultJson := some r.resultJson, errorCode := errorCode
    state := if state = .queued then t.state else .child state
    startedAt := if state = .running then some r.receivedAt else t.startedAt
    completedAt := if state.terminal then some r.receivedAt else t.completedAt }

/-- The writes of `commit_result`. -/
def record (op : ControllerOperation) (r : IngestedResult) (state : OperationState)
    (errorCode : Option String) (db : Database) : Database :=
  db.advance op.name (orNone op.bulkTarget) (recordOperation r state errorCode)
    (recordTarget r state errorCode) (recordBulkTarget r state errorCode)

/-- `commit_result` -/
def commitResult (agentId operationId : String) (expectedPreviousHash : Option String)
    (r : IngestedResult) : DbM Unit := do
  let db ← get
  match operationRow? db operationId with
  | none => throw (.ingestionOwnership "operation belongs to another agent")
  | some row =>
    if row.agentId ≠ agentId then
      throw (.ingestionOwnership "operation belongs to another agent")
    else if orNone row.op.resultHash ≠ expectedPreviousHash then
      if orNone row.op.resultHash = some r.bodyHash then return ()
      else throw (.ingestionConflict "result compare-and-set conflict")
    else do
      let (state, errorCode) ← Transaction.query fun _ => recordedState R row r
      modify (record row.op r state errorCode)

/-! ## The repository -/

/-- `FrappeIngestionRepository` -/
def repository : IngestionRepository Request where
  operation operationId := read fun db => .ok (operation R db operationId)
  event operationId sequence := read fun db => .ok (event db operationId sequence)
  appendEvents agentId operationId expectedLastSequence events :=
    locked (appendEvents R agentId operationId expectedLastSequence events)
  result operationId := read fun db => result R db operationId
  commitResult agentId operationId expectedPreviousHash r :=
    locked (commitResult R agentId operationId expectedPreviousHash r)

/-- A request as its transaction ends (`routes._dispatch`): the answer, and the version it
leaves behind. An exception rolls every write back. -/
def serve {α : Type} (m : EStateM Exc Request α) (views : List Database) (db : Database) :
    Except Exc α × Database :=
  match m { views, current := db } with
  | .ok a request => (.ok a, request.current)
  | .error e _ => (.error e, db)

end FrappeRepository

end FrappeController
