import FrappeController.Dispatcher
import FrappeController.Ingestion
import FrappeController.Timestamps

/-!
# `controller_store.py`: the SQLite reference store

The command queue of the reference store. Each method is one `BEGIN IMMEDIATE` transaction,
so a method that raises leaves the store as it was (`Transaction.committed`). Instants are
stored, and compared, as their timestamp text.
-/

namespace FrappeController
namespace ControllerStore

/-! ## Tables -/

/-- `commands.status` -/
inductive CommandStatus where
  | approved | leased | acknowledged | terminal
  deriving DecidableEq, Repr

/-- A row of `agents`. -/
structure Agent where
  agentId : String
  enabled : Bool

/-- A row of `commands`. -/
structure Command where
  operationId : String
  idempotencyKey : String
  agentId : String
  immutableJson : Text
  immutableHash : String
  envelopeJson : Text
  status : CommandStatus
  leaseExpiresAt : Option String
  resultState : Option OperationState
  createdAt : String
  updatedAt : String

/-- A row of `result_submissions`. -/
structure Submission where
  operationId : String
  bodyHash : String
  resultJson : Text
  resultState : OperationState
  receivedAt : String

structure Store where
  agents : List Agent
  commands : List Command
  resultSubmissions : List Submission

instance : Named Command := ⟨Command.operationId⟩

/-- A method body: it may raise, and then its writes are rolled back. -/
abbrev StoreM (α : Type) := EStateM Exc Store α

/-- `UPDATE commands SET ... WHERE operation_id=?` -/
def Store.setCommand (store : Store) (operationId : String) (f : Command → Command) : Store :=
  { store with commands := Table.setValue operationId f store.commands }

/-! ## Instants -/

/-- `_db_time` -/
def dbTime (value : DateTime) : String := timestamp value

/-- `value + timedelta(seconds=n)`, which raises beyond `datetime.max`. -/
def plusSeconds (value : DateTime) (n : ℕ) : Except Exc DateTime :=
  if (value.addSeconds n).representable then .ok (value.addSeconds n)
  else .error (.python "OverflowError")

variable (R : Runtime)

/-! ## Enqueueing -/

/-- `_ENVELOPE_FIELDS` -/
def envelopeFields : List String :=
  ["protocol_version", "operation_id", "idempotency_key", "agent_id", "audience", "bench_id",
    "site_id", "operation", "payload", "requested_by", "approval_claims", "issued_at",
    "expires_at", "payload_hash"]

/-- `security.require_agent_id` -/
def requireAgentId (value : Json) : Except Exc String :=
  match value with
  | .str s =>
    if Ingestion.identifier (fun c => Ingestion.isUpper c || Ingestion.isLower c || Ingestion.isDigit c)
        (fun c => Ingestion.isUpper c || Ingestion.isLower c || Ingestion.isDigit c || c == '.' || c == '_'
          || c == '-') 128 s then
      .ok s
    else .error (.python "agent_id is invalid")
  | _ => .error (.python "agent_id is invalid")

/-- The checks of `enqueue_approved_command` on the envelope: the agent, the operation and the
idempotency key it names. -/
def checkEnvelope (audience : String) (envelope : List (String × Json)) :
    Except Exc (String × String × String) := do
  ensure (Ingestion.sameKeys envelope envelopeFields) (.python "command envelope fields are invalid")
  validateJson R false false (.obj envelope)
  ensure ((Json.get envelope "protocol_version").str? == some "1.0"
      && (Json.get envelope "audience").str? == some audience)
    (.python "command envelope protocol is invalid")
  let agentId ← requireAgentId (Json.get envelope "agent_id")
  match Json.get envelope "operation_id", Json.get envelope "idempotency_key" with
  | .str raw, .str idempotencyKey =>
    match R.uuid raw with
    | none => .error (.python "badly formed hexadecimal UUID string")
    | some operationId =>
      ensure (operationId == R.lower raw && endsWith idempotencyKey operationId)
        (.python "command identity is invalid")
      match Json.get envelope "payload" with
      | .obj payload =>
        validateJson R true false (.obj payload)
        let text ← canonicalJson R (.obj payload)
        ensure ((Json.get envelope "payload_hash").str? == some (R.sha256 text))
          (.python "command payload hash is invalid")
        return (agentId, operationId, idempotencyKey)
      | _ => .error (.python "command payload must be an object")
  | _, _ => .error (.python "AttributeError")

/-- The row `enqueue_approved_command` inserts. -/
def newCommand (agentId operationId idempotencyKey : String) (immutableJson envelopeJson : Text)
    (created : DateTime) : Command where
  operationId := operationId
  idempotencyKey := idempotencyKey
  agentId := agentId
  immutableJson := immutableJson
  immutableHash := R.sha256 immutableJson
  envelopeJson := envelopeJson
  status := .approved
  leaseExpiresAt := none
  resultState := none
  createdAt := dbTime created
  updatedAt := dbTime created

/-- `enqueue_approved_command`: a command whose operation or idempotency key is stored already
must be the stored one. -/
def enqueueApprovedCommand (audience : String) (envelope : List (String × Json))
    (now : DateTime) : StoreM Unit := do
  let (agentId, operationId, idempotencyKey) ←
    Transaction.query fun _ => checkEnvelope R audience envelope
  let immutableJson ← Transaction.query fun _ => canonicalJson R (.obj (immutableCommand envelope))
  let envelopeJson ← Transaction.query fun _ => canonicalJson R (.obj envelope)
  let store ← get
  if store.agents.any fun a => a.agentId == agentId && a.enabled then
    match store.commands.find? fun c =>
        c.operationId == operationId || c.idempotencyKey == idempotencyKey with
    | none =>
      modify fun store => { store with
        commands := store.commands ++
          [newCommand R agentId operationId idempotencyKey immutableJson envelopeJson now] }
    | some row =>
      if row.immutableHash = R.sha256 immutableJson then return ()
      else throw (.controllerRequest "command_identity_conflict")
  else throw (.controllerRequest "unknown_or_disabled_agent")

/-! ## Leasing -/

/-- `status='approved' OR (status='leased' AND lease_expires_at<=?)` -/
def leasable (current : String) (row : Command) : Bool :=
  row.status == .approved ||
    (row.status == .leased && (row.leaseExpiresAt.map fun t => decide (t ≤ current)).getD false)

/-- `ORDER BY created_at,operation_id` -/
def queuedBefore (a b : Command) : Bool :=
  decide (a.createdAt < b.createdAt)
    || (a.createdAt == b.createdAt && decide (a.operationId ≤ b.operationId))

/-- The command the next poll of the agent delivers. -/
def next? (store : Store) (agentId : String) (current : String) : Option Command :=
  ((store.commands.filter fun row => row.agentId == agentId && leasable current row).insertionSort
    fun a b => queuedBefore a b).head?

/-- The columns a lease writes. -/
def lease (leaseExpiresAt : String) (envelopeJson : Text) (updatedAt : String) (row : Command) :
    Command :=
  { row with
    status := .leased, leaseExpiresAt := some leaseExpiresAt, envelopeJson := envelopeJson
    updatedAt := updatedAt }

/-- `json.loads(row["envelope_json"])`, to be stamped. -/
def storedEnvelope (row : Command) : Except Exc (List (String × Json)) :=
  match R.loads row.envelopeJson with
  | some (.obj fields) => .ok fields
  | some _ => .error (.python "TypeError")
  | none => .error (.python "JSONDecodeError")

/-- `lease_command`: the operation and the envelope it delivers. -/
def leaseCommand (lifetime clockSkew : ℕ) (agentId : String) (now : DateTime) :
    StoreM (Option (String × List (String × Json))) := do
  let store ← get
  match next? store agentId (dbTime now) with
  | none => return none
  | some row => do
    let stored ← Transaction.query fun _ => storedEnvelope R row
    let expires ← Transaction.query fun _ => plusSeconds now lifetime
    let envelope := Json.set (Json.set stored "issued_at" (.str (timestamp now))) "expires_at"
      (.str (timestamp expires))
    let leaseExpires ← Transaction.query fun _ => plusSeconds expires clockSkew
    let text ← Transaction.query fun _ => canonicalJson R (.obj envelope)
    modify fun store =>
      store.setCommand row.operationId (lease (dbTime leaseExpires) text (dbTime now))
    return some (row.operationId, envelope)

/-! ## Results -/

/-- `result.get("state", result.get("status"))`, which must be one of `_RESULT_STATES`. -/
def resultState (fields : List (String × Json)) : Except Exc OperationState :=
  match (fields.lookup "state").getD (Json.get fields "status") with
  | .str s =>
    match (OperationState.ofText? s).filter Ingestion.reportable with
    | some state => .ok state
    | none => .error (.controllerRequest "invalid_result_state")
  | .arr _ | .obj _ => .error (.python "TypeError")
  | _ => .error (.controllerRequest "invalid_result_state")

/-- The text and the state of a result `ingest_result` accepts on its own. -/
def checkResult (fields : List (String × Json)) : Except Exc (Text × OperationState) := do
  validateJson R true false (.obj fields)
  let encoded ← canonicalJson R (.obj fields)
  ensure (utf8Length encoded ≤ 262144) (.controllerRequest "result_too_large")
  let state ← resultState fields
  return (encoded, state)

/-- The columns a result writes on its command. -/
def recordResult (state : OperationState) (updatedAt : String) (row : Command) : Command :=
  { row with
    status := if state.terminal then .terminal else .acknowledged
    leaseExpiresAt := none, resultState := some state, updatedAt := updatedAt }

/-- `ingest_result`: whether the submission was new. -/
def ingestResult (agentId operationId : String) (fields : List (String × Json))
    (now : DateTime) : StoreM Bool := do
  let (encoded, state) ← Transaction.query fun _ => checkResult R fields
  let digest := R.sha256 encoded
  let store ← get
  match Table.get? store.commands operationId with
  | none => throw (.controllerRequest "operation_ownership_mismatch")
  | some command =>
    if command.agentId ≠ agentId then
      throw (.controllerRequest "operation_ownership_mismatch")
    else if store.resultSubmissions.any fun s =>
        s.operationId == operationId && s.bodyHash == digest then
      return false
    else if (command.resultState.map OperationState.terminal).getD false then
      throw (.controllerRequest "terminal_result_conflict")
    else if command.resultState = some .running ∧ state = .queued then
      throw (.controllerRequest "result_regression")
    else do
      modify fun store => { store with
        resultSubmissions := store.resultSubmissions ++
          [{ operationId, bodyHash := digest, resultJson := encoded, resultState := state
             receivedAt := dbTime now }] }
      modify fun store => store.setCommand operationId (recordResult state (dbTime now))
      return true

end ControllerStore

end FrappeController
