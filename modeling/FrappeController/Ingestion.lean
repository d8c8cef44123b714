import FrappeController.Security

/-!
# `ingestion.py`: event batches and results submitted by agents

`ControllerIngestionService` parses a request, reads the operation it names and its stored
events or result, and hands the rest to the repository. It is written over any repository
(`IngestionRepository`), as in the source.
-/

namespace FrappeController

/-! ## Values -/

structure OperationIdentity where
  operationId : String
  agentId : String
  benchId : String
  siteDomain : Option String
  operationType : String
  state : OperationState
  lastEventSequence : ℕ

structure StoredEvent where
  operationId : String
  sequence : ℕ
  bodyHash : String

structure IngestedEvent where
  operationId : String
  sequence : ℕ
  attempt : Option ℕ
  step : Option String
  kind : String
  detailsJson : Option Text
  bodyHash : String
  agentCreatedAt : DateTime
  receivedAt : DateTime
  deriving DecidableEq

structure StoredResult where
  operationId : String
  status : String
  bodyHash : String
  resultJson : Text

structure IngestedResult where
  operationId : String
  status : OperationState
  bodyHash : String
  resultJson : Text
  errorCode : Option String
  receivedAt : DateTime

/-- `IngestionRepository` -/
structure IngestionRepository (σ : Type) where
  operation : String → EStateM Exc σ (Option OperationIdentity)
  event : String → ℕ → EStateM Exc σ (Option StoredEvent)
  appendEvents : (agentId operationId : String) → (expectedLastSequence : ℕ) →
    List IngestedEvent → EStateM Exc σ ℕ
  result : String → EStateM Exc σ (Option StoredResult)
  commitResult : (agentId operationId : String) → (expectedPreviousHash : Option String) →
    IngestedResult → EStateM Exc σ Unit

namespace Ingestion

variable (R : Runtime)

/-! ## Field checks -/

/-- `_obj` -/
def obj (value : Json) (name : String) : Except Exc (List (String × Json)) :=
  match value with
  | .obj fields => .ok fields
  | _ => .error (.ingestionSchema (name ++ " must be an object"))

/-- `set(value) == fields` -/
def sameKeys (value : List (String × Json)) (fields : List String) : Bool :=
  (Json.keys value).all fields.contains && fields.all (Json.keys value).contains

/-- `_exact` -/
def exact (value : List (String × Json)) (fields : List String) (name : String) :
    Except Exc Unit :=
  ensure (sameKeys value fields) (.ingestionSchema (name ++ " fields do not match protocol v1"))

/-- `_text` -/
def text (value : Json) (name : String) (limit : ℕ) : Except Exc String :=
  match value with
  | .str s => do
    let chars := s.toList
    ensure (!chars.isEmpty && isStripped chars && !chars.contains (Char.ofNat 0)
        && !chars.contains '\n' && utf8Length chars ≤ limit)
      (.ingestionSchema (name ++ " is invalid"))
    return s
  | _ => .error (.ingestionSchema (name ++ " is invalid"))

/-- `_uuid` -/
def uuid (value : Json) (name : String) : Except Exc String := do
  let s ← text value name 36
  match R.uuid s with
  | none => .error (.ingestionSchema (name ++ " must be a UUID"))
  | some parsed =>
    ensure (parsed == R.lower s) (.ingestionSchema (name ++ " must be canonical"))
    return R.lower s

/-- `_time` -/
def time (value : Json) (name : String) : Except Exc DateTime := do
  let s ← text value name 64
  match R.fromisoformat s with
  | .invalid => .error (.ingestionSchema (name ++ " must be RFC3339"))
  | .naive => .error (.ingestionSchema (name ++ " requires timezone"))
  | .aware utc => .ok utc

/-- `_SENSITIVE` -/
def sensitiveMarkers : List String :=
  ["password", "passwd", "secret", "token", "credential", "private_key", "authorization"]

mutual

/-- `_sensitive` -/
def sensitive : Json → Bool
  | .obj fields => sensitiveFields fields
  | .arr items => sensitiveItems items
  | _ => false

def sensitiveItems : List Json → Bool
  | [] => false
  | x :: xs => sensitive x || sensitiveItems xs

def sensitiveFields : List (String × Json) → Bool
  | [] => false
  | (key, x) :: xs =>
    sensitiveMarkers.any (fun marker => containsText marker (dashToUnderscore (R.lower key)))
      || sensitive x || sensitiveFields xs

end

/-- `_canonical`; with `allow_nan=False` a value is JSON when it has no infinite number. -/
def canonical (value : Json) (name : String) (limit : ℕ) : Except Exc (Text × String) := do
  ensure (!sensitive R value) (.ingestionSchema (name ++ " contains raw secret field"))
  ensure (validateJson R false false value).isOk (.ingestionSchema (name ++ " must be JSON"))
  let encoded := R.dumps value
  ensure (utf8Length encoded ≤ limit) (.ingestionSchema (name ++ " too large"))
  return (encoded, R.sha256 encoded)

/-- One to `limit` characters, the first by `first`, the others by `rest`. -/
def identifier (first rest : Char → Bool) (limit : ℕ) (s : String) : Bool :=
  match s.toList with
  | [] => false
  | c :: cs => first c && cs.all rest && cs.length < limit

def isLower (c : Char) : Bool := 'a' ≤ c && c ≤ 'z'

def isUpper (c : Char) : Bool := 'A' ≤ c && c ≤ 'Z'

def isDigit (c : Char) : Bool := '0' ≤ c && c ≤ '9'

/-- `_KIND` -/
def isKind : String → Bool :=
  identifier isLower (fun c => isLower c || isDigit c || c == '_' || c == '.' || c == '-') 128

/-- `_STEP` -/
def isStep : String → Bool :=
  identifier (fun c => isUpper c || isLower c || isDigit c)
    (fun c => isUpper c || isLower c || isDigit c || c == '_' || c == '.' || c == ':' || c == '-')
    128

/-- `_ERROR` -/
def isError : String → Bool :=
  identifier isLower (fun c => isLower c || isDigit c || c == '_') 128

/-! ## Requests -/

/-- `_common`, without the request's own field. -/
def common (request : Json) (field : String) :
    Except Exc (List (String × Json) × String × String) := do
  let raw ← obj request "request"
  exact raw ["protocol_version", "agent_id", "audience", "operation_id", field] "request"
  ensure ((Json.get raw "protocol_version").str? == some "1.0")
    (.ingestionSchema "protocol version mismatch")
  let agent ← text (Json.get raw "agent_id") "agent_id" 128
  ensure ((Json.get raw "audience").str? == some "frappe-controller")
    (.ingestionSchema "audience mismatch")
  let operationId ← uuid R (Json.get raw "operation_id") "operation_id"
  return (raw, agent, operationId)

/-- A count, or `None`. -/
def attempt (value : Json) : Except Exc (Option ℕ) :=
  match value with
  | .null => .ok none
  | .int n =>
    if 0 ≤ n then .ok (some n.toNat) else .error (.ingestionSchema "invalid event attempt")
  | _ => .error (.ingestionSchema "invalid event attempt")

/-- A step name, or `None`. -/
def step (value : Json) : Except Exc (Option String) :=
  match value with
  | .null => .ok none
  | value => do
    let s ← text value "step" 128
    ensure (isStep s) (.ingestionSchema "invalid event step")
    return some s

/-- `_event` -/
def event (operationId : String) (value : Json) (now : DateTime) (index : ℕ) :
    Except Exc IngestedEvent := do
  let name := "events[" ++ toString index ++ "]"
  let raw ← obj value name
  exact raw ["sequence", "attempt", "step", "kind", "details", "created_at"] name
  match Json.get raw "sequence" with
  | .int n => do
    ensure (1 ≤ n) (.ingestionSchema "invalid event sequence")
    let attempt ← attempt (Json.get raw "attempt")
    let step ← step (Json.get raw "step")
    let kind ← text (Json.get raw "kind") "kind" 128
    ensure (isKind kind) (.ingestionSchema "invalid event kind")
    let created ← time R (Json.get raw "created_at") "created_at"
    ensure (created ≤ now.addSeconds 300) (.ingestionSchema "future event")
    let details ← match Json.get raw "details" with
      | .null => .ok none
      | details => (canonical R details "details" 65536).map fun c => some c.1
    let body : Json := .obj
      [("sequence", .int n), ("attempt", Json.get raw "attempt"), ("step", Json.get raw "step"),
        ("kind", .str kind), ("details", Json.get raw "details"),
        ("created_at", .str created.isoformat)]
    let bodyHash ← canonical R body name 67584
    return {
      operationId, sequence := n.toNat, attempt, step, kind, detailsJson := details
      bodyHash := bodyHash.2, agentCreatedAt := created, receivedAt := now }
  | _ => .error (.ingestionSchema "invalid event sequence")

/-- The items of a batch, parsed in order. -/
def events (operationId : String) (now : DateTime) : ℕ → List Json →
    Except Exc (List IngestedEvent)
  | _, [] => .ok []
  | index, value :: rest => do
    let item ← event R operationId value now index
    let items ← events operationId now (index + 1) rest
    return item :: items

/-- The events of a request: a non-empty array of at most 250, in strictly rising order. -/
def batch (operationId : String) (now : DateTime) (value : Json) :
    Except Exc (List IngestedEvent) := do
  match value with
  | .arr values => do
    ensure (!values.isEmpty && values.length ≤ 250)
      (.ingestionSchema "events must be non-empty bounded array")
    let parsed ← events R operationId now 0 values
    ensure (decide ((parsed.map (·.sequence)).Pairwise (· < ·)))
      (.ingestionSchema "events must be strictly ordered")
    return parsed
  | _ => .error (.ingestionSchema "events must be non-empty bounded array")

/-! ## The service -/

section Service

variable {σ : Type} (repository : IngestionRepository σ)

/-- `_owner` -/
def owner (agent operationId : String) : EStateM Exc σ OperationIdentity := do
  match ← repository.operation operationId with
  | none => throw (.unknownOperation "unknown operation")
  | some operation =>
    if operation.agentId = agent then return operation
    else throw (.ingestionOwnership "operation belongs to another agent")

/-- The loop of `ingest_events`: skip the stored events, collect the others, and move the
cursor over them. -/
def pendingEvents (operationId : String) : ℕ → List IngestedEvent →
    EStateM Exc σ (ℕ × List IngestedEvent)
  | cursor, [] => pure (cursor, [])
  | cursor, item :: rest => do
    match ← repository.event operationId item.sequence with
    | some existing =>
      if existing.bodyHash ≠ item.bodyHash then
        throw (.ingestionConflict "event is immutable")
      else if cursor < item.sequence then
        throw (.ingestionConflict "inconsistent cursor")
      else pendingEvents operationId cursor rest
    | none =>
      if item.sequence ≠ cursor + 1 then throw (.ingestionConflict "event gap")
      else do
        let (last, pending) ← pendingEvents operationId item.sequence rest
        return (last, item :: pending)

/-- `ingest_events` -/
def ingestEvents (request : Json) (receivedAt : DateTime) : EStateM Exc σ ℕ := do
  let (raw, agent, operationId) ← Transaction.query fun _ => common R request "events"
  let operation ← owner repository agent operationId
  let parsed ← Transaction.query fun _ =>
    batch R operationId receivedAt (Json.get raw "events")
  let (cursor, pending) ←
    pendingEvents repository operationId operation.lastEventSequence parsed
  if pending.isEmpty then return cursor
  else do
    let committed ← repository.appendEvents agent operationId operation.lastEventSequence pending
    if committed = cursor then return cursor
    else throw (.ingestionConflict "invalid committed cursor")

/-- The statuses a result may report: `_STATES`. -/
def reportable (state : OperationState) : Bool :=
  state == .queued || state == .running || state.terminal

/-- The operation a cancellation reports on. -/
def cancelTarget (raw : List (String × Json)) : Except Exc String :=
  match Json.get raw "target_operation_id" with
  | .null => .error (.ingestionOwnership "cancel target mismatch")
  | value => uuid R value "target_operation_id"

/-- The check on the nested identity of a full result. -/
def resultIdentity (operation : OperationIdentity) (raw : List (String × Json)) :
    EStateM Exc σ Unit := do
  let nested ← Transaction.query fun _ => uuid R (Json.get raw "operation_id") "result.operation_id"
  if operation.operationType = "operation.cancel" then do
    let target ← Transaction.query fun _ => cancelTarget R raw
    if target ≠ nested then throw (.ingestionOwnership "cancel target mismatch")
    else do
      let targetOp ← owner repository operation.agentId nested
      if targetOp.benchId ≠ operation.benchId then
        throw (.ingestionOwnership "cancel bench mismatch")
      else return ()
  else if nested ≠ operation.operationId then
    throw (.ingestionOwnership "result operation mismatch")
  else return ()

/-- The checks of a full result after its identity. -/
def resultTarget (operation : OperationIdentity) (raw : List (String × Json)) :
    Except Exc Unit := do
  ensure ((Json.get raw "bench_id").str? == some operation.benchId)
    (.ingestionOwnership "result bench mismatch")
  ensure (operation.operationType == "operation.cancel"
      || (Json.pyEq (Json.get raw "site_domain") (Json.ofOption operation.siteDomain)
        && (Json.get raw "operation").str? == some operation.operationType))
    (.ingestionOwnership "result target mismatch")
  match Json.get raw "attempt", Json.get raw "max_attempts" with
  | .int attempt, .int maxAttempts =>
    ensure (0 ≤ attempt && 1 ≤ maxAttempts) (.ingestionSchema "invalid attempt")
  | _, _ => .error (.ingestionSchema "invalid attempt")
  match raw.lookup "accepted" with
  | none | some (.bool _) => return ()
  | some _ => .error (.ingestionSchema "accepted must be boolean")

/-- The fields a result may have. -/
def resultFields : List String :=
  ["status", "operation_id", "bench_id", "site_domain", "operation", "attempt", "max_attempts",
    "error_code", "result", "accepted", "target_operation_id"]

/-- The fields a full result must have. -/
def identityFields : List String :=
  ["status", "operation_id", "bench_id", "site_domain", "operation", "attempt", "max_attempts",
    "error_code"]

/-- The fields, the status and the error code of a result. -/
def resultHeader (value : Json) :
    Except Exc (List (String × Json) × OperationState × Option String) := do
  let raw ← obj value "result"
  ensure ((Json.keys raw).all resultFields.contains && (Json.keys raw).contains "status")
    (.ingestionSchema "invalid result fields")
  let status ← text (Json.get raw "status") "status" 32
  match (OperationState.ofText? status).filter reportable with
  | none => .error (.ingestionSchema "unsupported result state")
  | some state =>
    match Json.get raw "error_code" with
    | .null => return (raw, state, none)
    | value => do
      let error ← text value "error_code" 128
      ensure (isError error) (.ingestionSchema "invalid error_code")
      return (raw, state, some error)

/-- The checks of `_result` on the three shapes of a result: rejected, short and full. -/
def resultShape (operation : OperationIdentity) (raw : List (String × Json))
    (status : OperationState) (error : Option String) : EStateM Exc σ Unit := do
  let short := sameKeys raw ["status", "error_code"]
  if status = .rejected then
    Transaction.query fun _ => ensure (short && error.isSome)
      (.ingestionSchema "invalid rejected result")
  else if short then
    Transaction.query fun _ => ensure (status == .failed && error.isSome)
      (.ingestionSchema "invalid short result")
  else do
    Transaction.query fun _ => ensure (identityFields.all (Json.keys raw).contains)
      (.ingestionSchema "missing result identity")
    resultIdentity R repository operation raw
    Transaction.query fun _ => resultTarget operation raw

/-- `_result` -/
def result (operation : OperationIdentity) (value : Json) (now : DateTime) :
    EStateM Exc σ IngestedResult := do
  let (raw, status, error) ← Transaction.query fun _ => resultHeader value
  resultShape R repository operation raw status error
  let (resultJson, bodyHash) ← Transaction.query fun _ => canonical R (.obj raw) "result" 262144
  return {
    operationId := operation.operationId, status, bodyHash, resultJson, errorCode := error
    receivedAt := now }

/-- `_TERMINAL`, on the status text of a stored result. -/
def terminalText (status : String) : Bool :=
  ((OperationState.ofText? status).map OperationState.terminal).getD false

/-- Whether a status may follow the stored one. -/
def monotonic (existing : String) (status : OperationState) : Bool :=
  (existing == "queued" && (status == .running || status.terminal))
    || (existing == "running" && status.terminal)

/-- `ingest_result` -/
def ingestResult (request : Json) (receivedAt : DateTime) : EStateM Exc σ IngestedResult := do
  let (raw, agent, operationId) ← Transaction.query fun _ => common R request "result"
  let operation ← owner repository agent operationId
  let submitted ← result R repository operation (Json.get raw "result") receivedAt
  match ← repository.result operationId with
  | none => do
    repository.commitResult agent operationId none submitted
    return submitted
  | some existing =>
    if existing.bodyHash = submitted.bodyHash then return submitted
    else if terminalText existing.status then
      throw (.ingestionConflict "terminal result immutable")
    else if !monotonic existing.status submitted.status then
      throw (.ingestionConflict "non-monotonic result")
    else do
      repository.commitResult agent operationId (some existing.bodyHash) submitted
      return submitted

end Service

end Ingestion

end FrappeController
