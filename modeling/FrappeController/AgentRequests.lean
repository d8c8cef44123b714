import FrappeController.ServerAgents

/-!
# `agent_request_auth.py` and `frappe_security_store.py`

Signed agent requests and the enrollment of their keys. Both lock the agent's row, work on the
committed columns and write them directly, past the document and its `modified` stamp.
-/

namespace FrappeController

/-- The functions of `hmac`, `hashlib` and `cryptography` that agent identities rest on. -/
structure Crypto where
  /-- Whether `public_key.verify(signature, message)` accepts, for a key in hexadecimal and a
  signature in URL-safe base 64. -/
  verify : (key signature : String) → (message : Text) → Bool
  /-- `hmac.new(pepper, raw_token, sha256).hexdigest()` -/
  tokenHash : String → String
  /-- `sha256(bytes.fromhex(key)).hexdigest()` -/
  keyDigest : String → String
  /-- `load_pem_public_key(pem).public_bytes(Raw, Raw).hex()`, for an Ed25519 key. -/
  publicKey : Text → Option String

namespace AgentRequests

open FrappeInventory (Session read readForUpdate write)

/-- Raise unless the condition holds. -/
def check (condition : Bool) (e : Exc) : EStateM Exc Session Unit :=
  Transaction.query fun _ => ensure condition e

/-- The row of an agent id, for a locking read. -/
def lockAgent (agentId : String) (db : Database) : Except Exc ServerAgent :=
  match FrappeInventory.agent? db agentId with
  | none => .error (.controllerRequest "unknown_or_disabled_agent")
  | some agent => .ok agent

/-- `db.set_value("Server Agent", name, values, update_modified=False)` -/
def setAgent (name : String) (f : ServerAgent → ServerAgent) : EStateM Exc Session Unit :=
  write fun db => { db with agents := Table.setValue name f db.agents }

/-! ## Signed requests -/

/-- What the routes read of an HTTP request: the method, the type and bytes of its body, and the
headers `X-Frappe-Agent-ID`, `X-Frappe-Agent-Sequence` and `X-Frappe-Agent-Signature`. -/
structure HttpRequest where
  method : String
  mimetype : String
  agentId : String
  sequence : String
  signature : String
  body : Text
  deriving DecidableEq, Repr

/-- `_SIGNATURE` -/
def isSignature (text : String) : Bool :=
  text.toList.length == 86 && text.toList.all fun c =>
    Ingestion.isUpper c || Ingestion.isLower c || Ingestion.isDigit c || c == '_' || c == '-'

/-- `_MAX_CLOCK_AGE_NS` -/
def maxClockAgeNs : ℤ := 300 * 1000000000

/-- `_MAX_FUTURE_NS` -/
def maxFutureNs : ℤ := 30 * 1000000000

/-- `_MAX_BODY` -/
def maxBody : ℕ := 1024 * 1024

variable (R : Runtime) (C : Crypto)

/-- `_canonical` -/
def canonical (agentId action sequence : String) (body : Text) : Text :=
  "frappe-agent-v1\n".toList ++ agentId.toList ++ '\n' :: action.toList ++ '\n' :: sequence.toList
    ++ '\n' :: (R.sha256 body).toList

/-- The checks on the locked row: the key, the signature and the sequence number. -/
def checkSignature (request : HttpRequest) (action : String) (agent : ServerAgent) :
    Except Exc Unit := do
  ensure agent.enabled (.controllerRequest "unknown_or_disabled_agent")
  let key := agent.signingPublicKeyEd25519.getD ""
  ensure (isSha256 key) (.controllerRequest "agent_signing_key_missing")
  ensure (C.verify key request.signature
      (canonical R request.agentId action request.sequence request.body))
    (.controllerRequest "agent_signature_invalid")
  let previous := ((orNone agent.lastSignedRequestAtNs).getD "0").toList
  ensure (previous.all Char.isDigit
      && decide (ServerAgent.decimal previous < ServerAgent.decimal request.sequence.toList))
    (.controllerRequest "agent_request_replayed")

/-- `trusted_peer_and_route_from_frappe_request`, the authenticated agent id. It commits. -/
def trustedPeerAndRoute (request : HttpRequest) (expectedAction : String) (current : ℤ) :
    EStateM Exc Session String := do
  check (expectedAction != "") (.controllerRequest "fixed_route_mismatch")
  check (Inventory.isAgent request.agentId && ServerAgent.isSequence request.sequence
    && isSignature request.signature) (.controllerRequest "agent_signature_invalid")
  let sequence : ℤ := ServerAgent.decimal request.sequence.toList
  check (decide (current - maxClockAgeNs ≤ sequence ∧ sequence ≤ current + maxFutureNs))
    (.controllerRequest "agent_signature_expired")
  check (decide (utf8Length request.body ≤ maxBody)) (.controllerRequest "request_too_large")
  let agent ← readForUpdate (lockAgent request.agentId)
  let _ ← Transaction.query fun _ => checkSignature R C request expectedAction agent
  setAgent agent.name fun a => { a with lastSignedRequestAtNs := some request.sequence }
  return request.agentId

/-- `FrappeCertificateStore.authenticate_peer`, for a signed request. -/
def authenticatePeer (peer pathAgentId bodyAgentId : String) (db : Database) : Except Exc Unit := do
  ensure (peer == pathAgentId && bodyAgentId == pathAgentId)
    (.controllerRequest "agent_binding_mismatch")
  ensure (((FrappeInventory.agent? db pathAgentId).map fun agent =>
      agent.enabled && truthy agent.signingPublicKeyEd25519).getD false)
    (.controllerRequest "agent_signature_not_authorized")

/-! ## Enrollment -/

/-- `_token_hash` -/
def tokenHash (rawToken : String) : Except Exc String := do
  ensure (rawToken != "") (.controllerRequest "invalid_enrollment_token")
  return C.tokenHash rawToken

/-- `create_enrollment_token`, for a token the library generated. -/
def createEnrollmentToken (agentId actor : String) (ttlSeconds : ℤ) (rawToken : String)
    (now : DateTime) : EStateM Exc Session String := do
  check (Inventory.isAgent agentId) (.python "agent_id is invalid")
  check (actor != "" && decide (1 ≤ ttlSeconds ∧ ttlSeconds ≤ 3600))
    (.python "enrollment token policy is invalid")
  let agent ← readForUpdate (lockAgent agentId)
  let hash ← Transaction.query fun _ => tokenHash C rawToken
  setAgent agent.name fun a =>
    { a with
      enrollmentTokenHash := some hash
      enrollmentExpiresAt := some (now.addSeconds ttlSeconds.toNat)
      enrollmentTokenCreatedAt := some now, enrollmentTokenCreatedBy := some actor
      enrollmentConsumedAt := none, enrollmentCompletedAt := none }
  return rawToken

/-- `bytes.fromhex(text)` returns: pairs of hexadecimal digits with blanks between them. -/
def isFromHex : List Char → Bool
  | [] => true
  | [c] => c.isWhitespace
  | c :: d :: rest =>
    let isHex (c : Char) := c.isDigit || ('a' ≤ c && c ≤ 'f') || ('A' ≤ c && c ≤ 'F')
    if c.isWhitespace then isFromHex (d :: rest) else isHex c && isHex d && isFromHex rest

/-- The columns that pin a key. -/
def pinKey (key : String) (now : DateTime) (a : ServerAgent) : ServerAgent :=
  { a with
    expectedPublicKeySha256 := some (C.keyDigest key), signingPublicKeyEd25519 := some key
    lastSignedRequestAtNs := none, enrollmentConsumedAt := some now
    enrollmentCompletedAt := some now, enabled := true, status := .offline }

/-- The checks on the locked row before a key is pinned; whether the row already holds it. -/
def checkEnrollment (rawToken key : String) (now : DateTime) (agent : ServerAgent) :
    Except Exc Bool := do
  let hash ← tokenHash C rawToken
  ensure (agent.enrollmentTokenHash.getD "" == hash)
    (.controllerRequest "invalid_enrollment_token")
  ensure ((agent.enrollmentExpiresAt.map fun expires => decide (now < expires)).getD false)
    (.controllerRequest "enrollment_token_expired")
  if agent.enrollmentConsumedAt.isSome then do
    ensure (agent.enrollmentCompletedAt.isSome
      && agent.signingPublicKeyEd25519.getD "" == key) (.controllerRequest "enrollment_token_used")
    return true
  else return false

/-- `complete_signing_key_enrollment`. It commits. -/
def completeSigningKeyEnrollment (rawToken agentId key : String) (now : DateTime) :
    EStateM Exc Session Unit := do
  check (Inventory.isAgent agentId) (.python "agent_id is invalid")
  check (key.toList.length == 64 && isFromHex key.toList)
    (.controllerRequest "agent_signing_key_invalid")
  let agent ← readForUpdate (lockAgent agentId)
  let pinned ← Transaction.query fun _ => checkEnrollment C rawToken key now agent
  if pinned then return ()
  setAgent agent.name (pinKey C key now)

/-- `_signing_public_key` -/
def signingPublicKey (pem : Text) : Except Exc String := do
  ensure (decide (64 ≤ utf8Length pem ∧ utf8Length pem ≤ 4096))
    (.controllerRequest "agent_signing_key_invalid")
  ensure (!containsText "PRIVATE KEY" (String.ofList pem)) (.controllerRequest "private_key_rejected")
  match C.publicKey pem with
  | none => .error (.controllerRequest "agent_signing_key_invalid")
  | some key => .ok key

/-- `bootstrap_agent_route`, the enrollment it performs after its checks on the policy. -/
def bootstrapAgent (rawToken agentId : String) (pem : Text) (now : DateTime) :
    EStateM Exc Session Unit := do
  let key ← Transaction.query fun _ => signingPublicKey C pem
  completeSigningKeyEnrollment C rawToken agentId key now

end AgentRequests

end FrappeController
