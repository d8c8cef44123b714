import FrappeController.FrappeInventory
import FrappeController.Security

/-!
# `server_agent.py`: the Server Agent document

`ServerAgent.validate` in the order of its checks, one definition a group of them, and the two
framework operations that run it: `insert` and `save`. A save writes every column of the loaded
copy, and is refused when the stored row has another `modified` stamp than that copy.
-/

namespace FrappeController

/-! ## Upgrade states -/

namespace UpgradeState

def text : UpgradeState → String
  | .none => "none"
  | .planned => "planned"
  | .draining => "draining"
  | .readyToDeploy => "ready_to_deploy"
  | .verifying => "verifying"
  | .succeeded => "succeeded"
  | .rollbackRequired => "rollback_required"
  | .rollbackVerifying => "rollback_verifying"
  | .rolledBack => "rolled_back"
  | .cancelled => "cancelled"

/-- `state not in {"none", "succeeded", "rolled_back", "cancelled"}` -/
def active : UpgradeState → Bool
  | .none | .succeeded | .rolledBack | .cancelled => false
  | _ => true

/-- `_UPGRADE_TRANSITIONS` -/
def transitions : UpgradeState → List UpgradeState
  | .none => [.planned]
  | .planned => [.draining, .readyToDeploy, .cancelled]
  | .draining => [.readyToDeploy, .cancelled]
  | .readyToDeploy => [.draining, .verifying, .rollbackRequired, .cancelled]
  | .verifying => [.succeeded, .rollbackRequired]
  | .succeeded => [.planned]
  | .rollbackRequired => [.rollbackVerifying]
  | .rollbackVerifying => [.rolledBack]
  | .rolledBack => [.planned]
  | .cancelled => [.planned]

end UpgradeState

namespace ServerAgent

/-! ## Texts -/

/-- `_AGENT_ID` -/
def isAgentId : String → Bool :=
  let alphanumeric (c : Char) := Ingestion.isLower c || Ingestion.isDigit c
  Ingestion.identifier alphanumeric
    (fun c => alphanumeric c || c == '.' || c == '_' || c == '-') 128

/-- `_VERSION` -/
def isVersion : String → Bool :=
  let alphanumeric (c : Char) := Ingestion.isUpper c || Ingestion.isLower c || Ingestion.isDigit c
  Ingestion.identifier alphanumeric
    (fun c => alphanumeric c || c == '.' || c == '_' || c == '+' || c == '-') 64

/-- `[1-9][0-9]{0,19}` -/
def isSequence : String → Bool :=
  Ingestion.identifier (fun c => '1' ≤ c && c ≤ '9') Ingestion.isDigit 20

/-- `int(text)` of a text of digits. -/
def decimal (text : List Char) : ℕ := Nat.ofDigitChars 10 text 0

/-- `_FAILURES` -/
def failures : List String :=
  ["deployment_failed", "health_timeout", "operator_requested", "version_mismatch"]

/-- One part of `ipaddress.IPv4Address(text)`: up to three digits, no leading zero. -/
def octet? (text : List Char) : Option ℕ :=
  if text ≠ [] ∧ text.all Char.isDigit = true ∧ text.length ≤ 3
      ∧ (text = ['0'] ∨ text.head? ≠ some '0') ∧ decimal text ≤ 255 then
    some (decimal text)
  else none

/-- `ipaddress.IPv4Address(text)`, its four numbers. -/
def ipv4? (text : String) : Option (List ℕ) :=
  let octets := text.toList.splitOn '.'
  if octets.length = 4 then octets.mapM octet? else none

/-- `str(address)` -/
def ipv4Text (octets : List ℕ) : String := ".".intercalate (octets.map toString)

/-- `setup_profiles.required_apps` -/
def requiredApps (R : Runtime) (value : Option Text) : Except Exc (List String) :=
  match R.loads ((value.filter (· ≠ [])).getD "[\"frappe\"]".toList) with
  | some (.arr items) =>
    let apps := items.filterMap Json.str?
    if 1 ≤ items.length ∧ items.length ≤ 32 ∧ apps.length = items.length
        ∧ apps.head? = some "frappe" ∧ apps.all Inventory.isAppName = true ∧ apps.Nodup then
      .ok apps
    else .error (.python "Required apps must be unique app names starting with frappe")
  | _ => .error (.python "Required apps must be unique app names starting with frappe")

/-! ## `ServerAgent.validate` -/

/-- Check a text column unless it is empty. -/
def checkText (valid : String → Bool) (e : Exc) (value : Option String) : Except Exc Unit :=
  ensure (!truthy value || (value.map valid).getD false) e

/-- A digest column that may be empty. -/
def checkDigest (value : Option String) (field : String) : Except Exc Unit :=
  checkText isSha256 (.validation (field ++ " must be a lowercase SHA-256 digest")) value

/-- The agent id, the protocol identity and the public address. -/
def validateIdentity (a : ServerAgent) : Except Exc Unit := do
  ensure (isAgentId a.agentId) (.validation "Agent ID has an invalid format")
  ensure (a.protocolVersion == "1.0" && a.audience == "frappe-controller")
    (.validation "Unsupported controller protocol identity")
  match orNone a.publicIp with
  | none => .ok ()
  | some address =>
    match ipv4? address with
    | none => .error (.validation "Public IP must be a valid IPv4 address")
    | some octets =>
      ensure (ipv4Text octets == address)
        (.validation "Public IP must use canonical IPv4 notation")

/-- `isinstance(value, str) and value`, for every element. -/
def nonemptyTexts (items : List Json) : Bool :=
  items.all fun item => (item.str?.map (· != "")).getD false

/-- The installation policy. -/
def validatePolicy (R : Runtime) (a : ServerAgent) : Except Exc Unit := do
  let suffixes ← requireJsonList R a.allowedSiteSuffixesJson "allowed_site_suffixes_json"
  let operations ← requireJsonList R a.allowedOperationsJson "allowed_operations_json"
  ensure (nonemptyTexts suffixes) (.validation "Allowed site suffixes must be non-empty strings")
  ensure (nonemptyTexts operations) (.validation "Allowed operations must be non-empty strings")
  ensure (requiredApps R a.setupRequiredAppsJson).isOk
    (.validation "Setup required apps must be unique app names starting with frappe")

/-- The columns enrollment and request authentication write. -/
def validateKeys (a : ServerAgent) : Except Exc Unit := do
  checkDigest a.enrollmentTokenHash "enrollment_token_hash"
  checkDigest a.expectedPublicKeySha256 "expected_public_key_sha256"
  checkDigest a.signingPublicKeyEd25519 "signing_public_key_ed25519"
  checkText isSequence (.validation "last_signed_request_at_ns is invalid") a.lastSignedRequestAtNs

/-- A disabled agent has the status `Disabled`. -/
def normalize (a : ServerAgent) : ServerAgent :=
  if a.enabled then a else { a with status := .disabled }

/-- The versions, digests and failure code of an upgrade, each by itself. -/
def validateUpgradeTexts (a : ServerAgent) : Except Exc Unit := do
  checkText isVersion (.validation "desired_agent_version is invalid") a.desiredAgentVersion
  checkText isVersion (.validation "previous_agent_version is invalid") a.previousAgentVersion
  checkDigest a.desiredImageDigest "desired_image_digest"
  checkDigest a.previousImageDigest "previous_image_digest"
  checkDigest a.observedImageDigest "observed_image_digest"
  checkText failures.contains (.validation "upgrade_failure_code is invalid") a.upgradeFailureCode

/-- What an active upgrade must have recorded. -/
def identified (a : ServerAgent) : Bool :=
  a.drainRequested && truthy a.drainRequestedBy && a.drainRequestedAt.isSome
    && truthy a.desiredAgentVersion && truthy a.desiredImageDigest
    && truthy a.previousAgentVersion && truthy a.previousImageDigest
    && truthy a.upgradeRequestedBy && a.upgradeRequestedAt.isSome

/-- `terminal_identity`: the version and the digest a completed upgrade must have. -/
def terminalIdentity (a : ServerAgent) : Option (Option String × Option String) :=
  match a.upgradeState with
  | .succeeded => some (a.desiredAgentVersion, a.desiredImageDigest)
  | .rolledBack => some (a.previousAgentVersion, a.previousImageDigest)
  | _ => none

/-- A completed upgrade has the identity it was to have, and no drain. -/
def validateTerminal (a : ServerAgent) : Except Exc Unit :=
  match terminalIdentity a with
  | none => .ok ()
  | some (version, digest) =>
    ensure (!a.drainRequested && a.upgradeVerifiedAt.isSome && a.agentVersion == version
        && a.observedImageDigest == digest)
      (.validation "Terminal upgrade verification is incomplete")

/-- The relation of the upgrade columns to the upgrade state. -/
def validateUpgradeState (a : ServerAgent) : Except Exc Unit := do
  ensure (!a.upgradeState.active || identified a)
    (.validation "Active upgrade identity or drain attribution is incomplete")
  ensure (a.upgradeState != .verifying
      || (a.upgradeDeployedAt.isSome && a.observedImageDigest == a.desiredImageDigest))
    (.validation "Upgrade verification identity is incomplete")
  ensure (a.upgradeState != .rollbackVerifying
      || (a.upgradeDeployedAt.isSome && a.observedImageDigest == a.previousImageDigest))
    (.validation "Rollback verification identity is incomplete")
  validateTerminal a
  ensure (a.upgradeState != .cancelled
      || (!a.drainRequested && a.upgradeDeployedAt.isNone
        && a.upgradeFailureCode == some "operator_requested"))
    (.validation "Cancelled upgrade identity is invalid")

/-- The columns `_UPGRADE_FIELDS` names. -/
structure UpgradeFields where
  drainRequested : Bool
  drainRequestedBy : Option String
  drainRequestedAt : Option DateTime
  upgradeState : UpgradeState
  desiredAgentVersion : Option String
  desiredImageDigest : Option String
  previousAgentVersion : Option String
  previousImageDigest : Option String
  observedImageDigest : Option String
  upgradeRequestedBy : Option String
  upgradeRequestedAt : Option DateTime
  upgradeDeployedAt : Option DateTime
  upgradeVerifiedAt : Option DateTime
  upgradeFailureCode : Option String
  deriving DecidableEq

def upgradeFields (a : ServerAgent) : UpgradeFields where
  drainRequested := a.drainRequested
  drainRequestedBy := a.drainRequestedBy
  drainRequestedAt := a.drainRequestedAt
  upgradeState := a.upgradeState
  desiredAgentVersion := a.desiredAgentVersion
  desiredImageDigest := a.desiredImageDigest
  previousAgentVersion := a.previousAgentVersion
  previousImageDigest := a.previousImageDigest
  observedImageDigest := a.observedImageDigest
  upgradeRequestedBy := a.upgradeRequestedBy
  upgradeRequestedAt := a.upgradeRequestedAt
  upgradeDeployedAt := a.upgradeDeployedAt
  upgradeVerifiedAt := a.upgradeVerifiedAt
  upgradeFailureCode := a.upgradeFailureCode

/-- No upgrade column of a new document is set. -/
def untouched (a : ServerAgent) : Bool :=
  a.upgradeState == .none && !a.drainRequested && !truthy a.drainRequestedBy
    && a.drainRequestedAt.isNone && !truthy a.desiredAgentVersion && !truthy a.desiredImageDigest
    && !truthy a.previousAgentVersion && !truthy a.previousImageDigest
    && !truthy a.observedImageDigest && !truthy a.upgradeRequestedBy
    && a.upgradeRequestedAt.isNone && a.upgradeDeployedAt.isNone && a.upgradeVerifiedAt.isNone
    && !truthy a.upgradeFailureCode

/-- The comparison with the row before the save; `service` is the flag
`controller_service` of the document. -/
def validatePrevious (previous : Option ServerAgent) (service : Bool) (a : ServerAgent) :
    Except Exc Unit :=
  match previous with
  | some previous => do
    ensure (decide (upgradeFields previous = upgradeFields a) || service)
      (.permission "Upgrade fields are restricted to the controller service")
    legalTransition UpgradeState.transitions .illegalUpgradeTransition previous.upgradeState
      a.upgradeState
    immutableField previous.agentId a.agentId "agent_id"
    immutableField previous.protocolVersion a.protocolVersion "protocol_version"
    immutableField previous.audience a.audience "audience"
  | none =>
    ensure (untouched a || service)
      (.permission "Upgrade fields are restricted to the controller service")

/-- `ServerAgent.validate` -/
def validate (R : Runtime) (previous : Option ServerAgent) (service : Bool) (a : ServerAgent) :
    Except Exc ServerAgent := do
  validateIdentity a
  let _ ← requireJsonList R a.capabilitiesJson "capabilities_json"
  validatePolicy R a
  validateKeys a
  let a := normalize a
  validateUpgradeTexts a
  validateUpgradeState a
  validatePrevious previous service a
  return a

/-! ## `Document.insert` and `Document.save` -/

section Document

open FrappeInventory (Session readForUpdate write)

variable (R : Runtime) (now : DateTime)

/-- `document.insert()`, named after its agent id. -/
def insert (a : ServerAgent) : EStateM Exc Session Unit := do
  let _ ← readForUpdate fun db =>
    ensure (Table.get? db.agents a.agentId).isNone (.duplicateEntry "Server Agent")
  let a ← Transaction.query fun _ => validate R none false { a with name := a.agentId }
  write fun db => { db with agents := db.agents ++ [{ a with modified := now }] }

/-- The stored row of a loaded copy, if it has not been saved since. -/
def checkIfLatest (a : ServerAgent) (db : Database) : Except Exc ServerAgent :=
  match Table.get? db.agents a.name with
  | none => .error (.doesNotExist "Server Agent")
  | some row => do
    ensure (row.modified == a.modified) (.timestampMismatch "Server Agent")
    return row

/-- `document.save()`; the document as it was saved. -/
def save (service : Bool) (a : ServerAgent) : EStateM Exc Session ServerAgent := do
  let previous ← readForUpdate (checkIfLatest a)
  let a ← Transaction.query fun _ => validate R (some previous) service a
  let saved := { a with modified := now }
  write fun db => { db with agents := Table.setValue a.name (fun _ => saved) db.agents }
  return saved

end Document

end ServerAgent

end FrappeController
