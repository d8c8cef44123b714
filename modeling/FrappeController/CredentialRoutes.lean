import FrappeController.FrappeRepository

/-!
# `api/credential_routes.py`: the Administrator credential of a new site

The agent delivers the credential of a site-creation operation it owns, and a user consumes it.
Both endpoints lock the row of the operation, so that calls take effect one after another.
-/

namespace FrappeController
namespace CredentialRoutes

/-- The columns of a `Controller Operation` the two endpoints read or write. The credential is a
Password field, given by what `get_password` answers. -/
structure Handoff where
  name : String
  operationId : String
  operationType : String
  serverAgent : String
  requestedBy : String
  administratorCredential : Option String
  credentialReceivedAt : Option DateTime
  credentialConsumedAt : Option DateTime
  deriving DecidableEq, Repr

instance : Named Handoff := ⟨Handoff.name⟩

/-- `_OPERATION_ID` -/
def isOperationId (s : String) : Bool :=
  let isAlphanum (c : Char) := Ingestion.isLower c || Ingestion.isUpper c || Ingestion.isDigit c
  Ingestion.identifier isAlphanum (fun c => isAlphanum c || ['.', '_', ':', '-'].contains c) 128 s

/-! ## Password fields

A save filters the texts of a document before it stores them, and takes a text of asterisks for
the placeholder of a value that is stored already. -/

/-- `BaseDocument.is_dummy_password`: only asterisks. -/
def isDummyPassword (value : String) : Bool :=
  !value.isEmpty && value.toList.all (· == '*')

/-- `BaseDocument._sanitize_content` on one text, over Frappe's filter of texts that may be HTML. -/
def sanitizeContent (sanitizeHtml : String → String) (value : String) : String :=
  if value.toList.contains '<' || value.toList.contains '>' then sanitizeHtml value else value

/-- `BaseDocument._save_passwords`: what `get_password` answers after a save of the value, over
what it answered before. -/
def savePassword (sanitizeHtml : String → String) (value : String) (stored : Option String) :
    Option String :=
  let newPassword := sanitizeContent sanitizeHtml value
  if newPassword.isEmpty then none
  else if isDummyPassword newPassword then stored
  else some newPassword

/-! ## `store_credential_route` -/

/-- The code and the status of a refusal. -/
structure Refusal where
  error : String
  status : ℕ
  deriving DecidableEq, Repr

structure Delivery where
  agentId : String
  operationId : String
  credential : String
  deriving DecidableEq, Repr

/-- One to 512 characters without NUL. -/
def isCredential (s : String) : Bool :=
  1 ≤ s.length && s.length ≤ 512 && !s.toList.contains (Char.ofNat 0)

/-- The checks of the fields of a body. -/
def delivery (value : List (String × Json)) : Except Refusal Delivery :=
  match Json.get value "protocol_version", Json.get value "audience", Json.get value "agent_id",
    Json.get value "operation_id", Json.get value "credential" with
  | .str "1.0", .str "frappe-controller", .str agentId, .str operationId, .str credential =>
    if isOperationId operationId && isCredential credential then
      .ok ⟨agentId, operationId, credential⟩
    else .error ⟨"invalid_credential_request", 400⟩
  | _, _, _, _, _ => .error ⟨"invalid_credential_request", 400⟩

/-- A request, with what the code around the endpoint makes of it. -/
structure StoreRequest where
  /-- `parse_exact_json(_request_body(4096), _FIELDS, limit=4096)` -/
  value : Except Refusal (List (String × Json))
  /-- `authenticate_peer(peer, routed, agent_id)` -/
  authenticatePeer : String → Except Refusal Unit
  /-- Whether the other checks of the document let the save pass. -/
  saves : Bool
  now : DateTime

/-- `store_credential_route` -/
def storeCredentialRoute (sanitizeHtml : String → String) (request : StoreRequest)
    (operations : List Handoff) : Except Refusal (List Handoff) := do
  let value ← request.value
  let delivery ← delivery value
  request.authenticatePeer delivery.agentId
  match Table.get? operations delivery.operationId with
  | none => .error ⟨"unknown_operation", 404⟩
  | some operation =>
    if operation.serverAgent ≠ delivery.agentId
        ∨ FrappeRepository.isCreation operation.operationType = false then
      .error ⟨"credential_ownership_mismatch", 403⟩
    else if operation.credentialConsumedAt.isSome then
      -- the owner retries a completed handoff whose acknowledgement was lost
      if operation.credentialReceivedAt.isSome then .ok operations
      else .error ⟨"credential_already_consumed", 409⟩
    else if operation.credentialReceivedAt.isSome then
      if operation.administratorCredential ≠ some delivery.credential then
        .error ⟨"credential_conflict", 409⟩
      else .ok operations
    else if request.saves then
      .ok (Table.setValue delivery.operationId (fun operation => { operation with
        administratorCredential :=
          savePassword sanitizeHtml delivery.credential operation.administratorCredential
        credentialReceivedAt := some request.now }) operations)
    else .error ⟨"internal_error", 500⟩

/-! ## `consume_operation_credential` -/

structure ConsumeRequest where
  operationId : Json
  /-- `frappe.session.user` -/
  user : Option String
  /-- `frappe.get_roles(user)` -/
  roles : List String
  /-- What the other checks of the document raise at the save. -/
  save : Except Exc Unit
  now : DateTime

/-- The returned credential. -/
structure Consumed where
  operationId : String
  administratorCredential : String
  deriving DecidableEq, Repr

/-- A user that is no guest, with the role or the requester. -/
def mayConsume (request : ConsumeRequest) (operation : Handoff) : Bool :=
  match request.user with
  | none => false
  | some user =>
    user != "" && user != "Guest"
      && (request.roles.contains "Controller Admin" || operation.requestedBy == user)

/-- `consume_operation_credential` -/
def consumeOperationCredential (request : ConsumeRequest) (operations : List Handoff) :
    Except Exc (Consumed × List Handoff) :=
  match request.operationId with
  | .str operationId =>
    if isOperationId operationId = false then .error (.validation "Operation ID is invalid")
    else
      match Table.get? operations operationId with
      | none => .error (.doesNotExist "Operation does not exist")
      | some operation =>
        if mayConsume request operation = false then
          .error (.permission "Credential access is not allowed")
        else
          match operation.administratorCredential with
          | none => .error (.doesNotExist "Credential is unavailable or was already consumed")
          | some credential =>
            if credential = "" ∨ operation.credentialConsumedAt.isSome then
              .error (.doesNotExist "Credential is unavailable or was already consumed")
            else do
              request.save
              return (⟨operation.operationId, credential⟩,
                Table.setValue operationId (fun operation => { operation with
                  administratorCredential := none
                  credentialConsumedAt := some request.now }) operations)
  | _ => .error (.validation "Operation ID is invalid")

/-! ## Sequences of calls -/

inductive Label where
  /-- A delivery that was acknowledged. -/
  | stored (delivery : Delivery)
  | refused (refusal : Refusal)
  /-- A credential that was returned to a user. -/
  | consumed (value : Consumed)
  | denied (error : Exc)
  /-- A new operation was authored. -/
  | authored (operation : Handoff)

inductive Step (sanitizeHtml : String → String) : List Handoff → Label → List Handoff → Prop
  | stored {operations operations' : List Handoff} {request : StoreRequest} {delivered : Delivery}
      (hdelivery : (request.value >>= delivery) = .ok delivered)
      (h : storeCredentialRoute sanitizeHtml request operations = .ok operations') :
      Step sanitizeHtml operations (.stored delivered) operations'
  | refused {operations : List Handoff} {request : StoreRequest} {refusal : Refusal}
      (h : storeCredentialRoute sanitizeHtml request operations = .error refusal) :
      Step sanitizeHtml operations (.refused refusal) operations
  | consumed {operations operations' : List Handoff} {request : ConsumeRequest} {value : Consumed}
      (h : consumeOperationCredential request operations = .ok (value, operations')) :
      Step sanitizeHtml operations (.consumed value) operations'
  | denied {operations : List Handoff} {request : ConsumeRequest} {error : Exc}
      (h : consumeOperationCredential request operations = .error error) :
      Step sanitizeHtml operations (.denied error) operations
  | authored {operations : List Handoff} {operation : Handoff}
      (hid : operation.operationId = operation.name)
      (hnew : Table.get? operations operation.name = none)
      (hcredential : operation.administratorCredential = none)
      (hreceived : operation.credentialReceivedAt = none)
      (hconsumed : operation.credentialConsumedAt = none) :
      Step sanitizeHtml operations (.authored operation) (operations ++ [operation])

end CredentialRoutes
end FrappeController
