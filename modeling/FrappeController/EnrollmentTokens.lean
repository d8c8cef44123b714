import FrappeController.AgentRequests
import FrappeController.ControllerStore

/-!
# Enrollment with a certificate

The two-step enrollment of `frappe_security_store.py`, beside the one-step enrollment of a
signing key, and the enrollment tokens of `controller_store.py`. A token is claimed before the
CA is asked, and completed with the certificate the CA issued.
-/

namespace FrappeController

/-- `security.VerifiedCSR` -/
structure VerifiedCSR where
  agentId : String
  publicKeySha256 : String
  csrSha256 : String
  /-- `__post_init__` -/
  valid : (Inventory.isAgent agentId && isSha256 publicKeySha256 && isSha256 csrSha256) = true

/-- `security.CertificateIssuance`, without the texts of the certificates. -/
structure CertificateIssuance where
  serial : String
  fingerprintSha256 : String
  publicKeySha256 : String
  notBefore : DateTime
  notAfter : DateTime

namespace AgentRequests

open FrappeInventory (Session readForUpdate)

/-- A row of `Agent Certificate`. Its name is its fingerprint. -/
structure AgentCertificate where
  serverAgent : String
  serialNumber : String
  fingerprintSha256 : String
  publicKeySha256 : String
  validFrom : DateTime
  validUntil : DateTime
  issuedAt : DateTime
  issuedBy : String

variable (C : Crypto)

/-- The checks of `claim_enrollment_token` on the locked row. -/
def checkClaim (rawToken : String) (verified : VerifiedCSR) (now : DateTime) (agent : ServerAgent) :
    Except Exc Unit := do
  let hash ← tokenHash C rawToken
  ensure (agent.enrollmentTokenHash.getD "" == hash)
    (.controllerRequest "invalid_enrollment_token")
  ensure agent.enrollmentConsumedAt.isNone (.controllerRequest "enrollment_token_used")
  ensure ((agent.enrollmentExpiresAt.map fun expires => decide (now < expires)).getD false)
    (.controllerRequest "enrollment_token_expired")
  let expectedKey := agent.expectedPublicKeySha256.getD ""
  ensure (expectedKey == "" || expectedKey == verified.publicKeySha256)
    (.controllerRequest "csr_key_mismatch")

/-- The columns a claim writes: the first key is pinned. -/
def claimKey (verified : VerifiedCSR) (now : DateTime) (a : ServerAgent) : ServerAgent :=
  { a with
    expectedPublicKeySha256 :=
      if a.expectedPublicKeySha256.getD "" = "" then some verified.publicKeySha256
      else a.expectedPublicKeySha256
    enrollmentConsumedAt := some now }

/-- `claim_enrollment_token`. It commits. -/
def claimEnrollmentToken (rawToken : String) (verified : VerifiedCSR) (now : DateTime) :
    EStateM Exc Session Unit := do
  let agent ← readForUpdate (lockAgent verified.agentId)
  let _ ← Transaction.query fun _ => checkClaim C rawToken verified now agent
  setAgent agent.name (claimKey verified now)

/-- The checks of `complete_enrollment` on the locked row. -/
def checkCompletion (rawToken : String) (verified : VerifiedCSR) (agent : ServerAgent) :
    Except Exc Unit := do
  let hash ← tokenHash C rawToken
  ensure (agent.enrollmentTokenHash.getD "" == hash && agent.enrollmentConsumedAt.isSome
    && agent.enrollmentCompletedAt.isNone) (.controllerRequest "enrollment_completion_conflict")
  let expectedKey := agent.expectedPublicKeySha256.getD ""
  ensure (expectedKey == "" || expectedKey == verified.publicKeySha256)
    (.controllerRequest "csr_key_mismatch")

/-- `_insert_certificate`, with the unique columns of `Agent Certificate`. -/
def insertCertificate (serverAgent : String) (issuance : CertificateIssuance) (actor : String)
    (now : DateTime) (certificates : List AgentCertificate) :
    Except Exc (List AgentCertificate) := do
  ensure (decide (issuance.notBefore ≤ now ∧ now < issuance.notAfter))
    (.controllerRequest "certificate_not_current")
  ensure (certificates.all fun c => c.fingerprintSha256 != issuance.fingerprintSha256
    && c.serialNumber != issuance.serial) (.controllerRequest "certificate_identity_conflict")
  return certificates ++
    [{ serverAgent, serialNumber := issuance.serial
       fingerprintSha256 := issuance.fingerprintSha256
       publicKeySha256 := issuance.publicKeySha256, validFrom := issuance.notBefore
       validUntil := issuance.notAfter, issuedAt := now, issuedBy := actor }]

/-- `complete_enrollment`, with the certificates it leaves. -/
def completeEnrollment (rawToken : String) (verified : VerifiedCSR)
    (issuance : CertificateIssuance) (actor : String) (now : DateTime)
    (certificates : List AgentCertificate) : EStateM Exc Session (List AgentCertificate) := do
  check (issuance.publicKeySha256 == verified.publicKeySha256)
    (.controllerRequest "certificate_key_mismatch")
  let agent ← readForUpdate (lockAgent verified.agentId)
  let _ ← Transaction.query fun _ => checkCompletion C rawToken verified agent
  let certificates ← Transaction.query fun _ =>
    insertCertificate agent.name issuance actor now certificates
  setAgent agent.name fun a =>
    { a with enrollmentCompletedAt := some now, enabled := true, status := .offline }
  return certificates

end AgentRequests

namespace ControllerStore

/-- A row of `agents`, by the columns enrollment reads. -/
structure EnrolledAgent where
  agentId : String
  enabled : Bool
  expectedPublicKeySha256 : String

/-- A row of `enrollment_tokens`. -/
structure EnrollmentToken where
  tokenHash : String
  agentId : String
  publicKeySha256 : String
  expiresAt : String
  createdBy : String
  createdAt : String
  consumedAt : Option String
  completedAt : Option String

/-- A row of `certificates`, as it is inserted. -/
structure Certificate where
  serial : String
  fingerprintSha256 : String
  agentId : String
  publicKeySha256 : String
  notBefore : String
  notAfter : String
  issuedBy : String
  issuedAt : String

/-- The tables of enrollment. -/
structure Enrollments where
  agents : List EnrolledAgent
  tokens : List EnrollmentToken
  certificates : List Certificate

instance : Named EnrollmentToken := ⟨EnrollmentToken.tokenHash⟩

/-- A method body on the tables of enrollment. -/
abbrev EnrollmentM (α : Type) := EStateM Exc Enrollments α

/-- `UPDATE enrollment_tokens SET ... WHERE token_hash=?` -/
def Enrollments.setToken (store : Enrollments) (tokenHash : String)
    (f : EnrollmentToken → EnrollmentToken) : Enrollments :=
  { store with tokens := Table.setValue tokenHash f store.tokens }

/-- Raise unless the condition holds. -/
def require (condition : Bool) (e : Exc) : EnrollmentM Unit :=
  Transaction.query fun _ => ensure condition e

variable (R : Runtime) (C : Crypto)

/-- `create_enrollment_token`, for a token the library generated. -/
def createEnrollmentToken (agentId actor : String) (ttlSeconds : ℤ) (rawToken : String)
    (now : DateTime) : EnrollmentM String := do
  require (decide (1 ≤ ttlSeconds ∧ ttlSeconds ≤ 3600))
    (.python "enrollment token lifetime is invalid")
  let agent ← Transaction.query fun store =>
    match store.agents.find? fun a => a.agentId == agentId && a.enabled with
    | none => .error (.controllerRequest "unknown_or_disabled_agent")
    | some agent => .ok agent
  let expires ← Transaction.query fun _ => plusSeconds now ttlSeconds.toNat
  let store ← get
  -- the primary key of the table
  require (Table.get? store.tokens (C.tokenHash rawToken)).isNone (.python "IntegrityError")
  modify fun store => { store with tokens := store.tokens ++
    [{ tokenHash := C.tokenHash rawToken, agentId
       publicKeySha256 := agent.expectedPublicKeySha256, expiresAt := dbTime expires
       createdBy := actor, createdAt := dbTime now, consumedAt := none, completedAt := none }] }
  return rawToken

/-- `_from_db` -/
def fromDb (value : String) : Except Exc DateTime :=
  match R.fromisoformat value with
  | .aware utc => .ok utc
  | _ => .error (.python "Invalid isoformat string")

/-- The token the two steps of an enrollment work on. -/
def token? (rawToken : String) (verified : VerifiedCSR) (store : Enrollments) :
    Option EnrollmentToken :=
  (Table.get? store.tokens (C.tokenHash rawToken)).filter fun token =>
    token.agentId == verified.agentId

/-- The checks of `claim_enrollment_token`. -/
def checkClaim (rawToken : String) (verified : VerifiedCSR) (now : DateTime)
    (store : Enrollments) : Except Exc EnrollmentToken :=
  match token? C rawToken verified store with
  | none => .error (.controllerRequest "invalid_enrollment_token")
  | some token => do
    ensure token.consumedAt.isNone (.controllerRequest "enrollment_token_used")
    let expires ← fromDb R token.expiresAt
    ensure (decide (now < expires)) (.controllerRequest "enrollment_token_expired")
    ensure (token.publicKeySha256 == verified.publicKeySha256)
      (.controllerRequest "csr_key_mismatch")
    ensure (((store.agents.find? fun a => a.agentId == verified.agentId).map
      EnrolledAgent.enabled).getD false) (.controllerRequest "unknown_or_disabled_agent")
    return token

/-- `claim_enrollment_token`. The condition of its update is one the checks have made. -/
def claimEnrollmentToken (rawToken : String) (verified : VerifiedCSR) (now : DateTime) :
    EnrollmentM Unit := do
  let token ← Transaction.query (checkClaim R C rawToken verified now)
  modify fun store => store.setToken token.tokenHash fun t =>
    { t with consumedAt := some (dbTime now) }

/-- `_insert_certificate`, with the unique columns of `certificates`. -/
def insertCertificate (agentId : String) (issuance : CertificateIssuance) (actor : String)
    (now : DateTime) : EnrollmentM Unit := do
  require (decide (issuance.notBefore ≤ now ∧ now < issuance.notAfter))
    (.controllerRequest "certificate_not_current")
  let store ← get
  require (store.certificates.all fun c => c.fingerprintSha256 != issuance.fingerprintSha256
    && c.serial != issuance.serial) (.python "IntegrityError")
  modify fun store => { store with certificates := store.certificates ++
    [{ serial := issuance.serial, fingerprintSha256 := issuance.fingerprintSha256, agentId
       publicKeySha256 := issuance.publicKeySha256, notBefore := dbTime issuance.notBefore
       notAfter := dbTime issuance.notAfter, issuedBy := actor, issuedAt := dbTime now }] }

/-- The checks of `complete_enrollment` on the token. -/
def checkCompletion (rawToken : String) (verified : VerifiedCSR) (store : Enrollments) :
    Except Exc EnrollmentToken :=
  match token? C rawToken verified store with
  | none => .error (.controllerRequest "enrollment_completion_conflict")
  | some token => do
    ensure (token.consumedAt.isSome && token.completedAt.isNone)
      (.controllerRequest "enrollment_completion_conflict")
    ensure (token.publicKeySha256 == verified.publicKeySha256)
      (.controllerRequest "csr_key_mismatch")
    return token

/-- `complete_enrollment` -/
def completeEnrollment (rawToken : String) (verified : VerifiedCSR)
    (issuance : CertificateIssuance) (actor : String) (now : DateTime) : EnrollmentM Unit := do
  require (issuance.publicKeySha256 == verified.publicKeySha256)
    (.controllerRequest "certificate_key_mismatch")
  let token ← Transaction.query (checkCompletion C rawToken verified)
  insertCertificate verified.agentId issuance actor now
  modify fun store => store.setToken token.tokenHash fun t =>
    { t with completedAt := some (dbTime now) }

end ControllerStore

end FrappeController
