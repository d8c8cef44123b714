import FrappeController.EnrollmentTokens
import FrappeController.Library.Run

/-!
# Agent certificates

The certificates of `frappe_security_store.py`: one is inserted when an enrollment completes,
replaced by a rotation, or revoked. A rotation authenticates its peer in the snapshot of its
transaction and decides on the locked rows. An issuance at hand passed `__post_init__`, so the
checks of the inserted document cannot fail.
-/

namespace FrappeController
namespace Certificates

open AgentRequests (AgentCertificate insertCertificate)

inductive CertificateStatus where
  | pending
  | active
  | rotating
  | revoked
  | expired
  deriving DecidableEq

/-- A row of `Agent Certificate`: what it is inserted with, and the columns that change. -/
structure CertificateRow where
  certificate : AgentCertificate
  status : CertificateStatus
  overlapUntil : Option DateTime
  revokedAt : Option DateTime
  revokedBy : Option String
  revocationReason : Option String

/-- The columns of a Server Agent the certificate store reads. -/
structure AgentRow where
  name : String
  agentId : String
  enabled : Bool

structure Tables where
  agents : List AgentRow
  certificates : List CertificateRow

/-- `security.TrustedPeerIdentity`, of a peer with a certificate. -/
structure TrustedPeer where
  agentId : String
  certificateSerial : String
  certificateFingerprintSha256 : String

/-- The row of an agent id and a serial number. -/
def certificate? (db : Tables) (agentId serial : String) : Option (AgentRow × CertificateRow) :=
  (db.certificates.filter fun c => c.certificate.serialNumber == serial).findSome? fun c =>
    (db.agents.find? fun a => a.name == c.certificate.serverAgent && a.agentId == agentId).map
      fun a => (a, c)

/-- Whether a row authenticates a peer with this fingerprint. -/
def authorizes (fingerprint : String) (now : DateTime) (agent : AgentRow) (row : CertificateRow) :
    Bool :=
  agent.enabled && row.certificate.fingerprintSha256 == fingerprint
    && (row.status == .active
      || row.status == .rotating && (row.overlapUntil.map fun u => decide (now < u)).getD false)
    && decide (row.certificate.validFrom ≤ now ∧ now < row.certificate.validUntil)

/-- `authenticate_peer`, for a peer with a certificate. -/
def authenticatePeer (peer : TrustedPeer) (pathAgentId bodyAgentId : String) (now : DateTime)
    (db : Tables) : Except Exc Unit := do
  ensure (peer.agentId == pathAgentId && bodyAgentId == pathAgentId)
    (.controllerRequest "agent_binding_mismatch")
  ensure (((certificate? db pathAgentId peer.certificateSerial).map fun found =>
      authorizes peer.certificateFingerprintSha256 now found.1 found.2).getD false)
    (.controllerRequest "certificate_not_authorized")

/-- The row `_insert_certificate` inserts. -/
def newRow (serverAgent : String) (issuance : CertificateIssuance) (actor : String)
    (now : DateTime) : CertificateRow where
  certificate :=
    { serverAgent, serialNumber := issuance.serial
      fingerprintSha256 := issuance.fingerprintSha256
      publicKeySha256 := issuance.publicKeySha256, validFrom := issuance.notBefore
      validUntil := issuance.notAfter, issuedAt := now, issuedBy := actor }
  status := .active
  overlapUntil := none
  revokedAt := none
  revokedBy := none
  revocationReason := none

/-- `_insert_certificate` -/
def insertRow (serverAgent : String) (issuance : CertificateIssuance) (actor : String)
    (now : DateTime) (rows : List CertificateRow) : Except Exc (List CertificateRow) := do
  let _ ← insertCertificate serverAgent issuance actor now (rows.map (·.certificate))
  return rows ++ [newRow serverAgent issuance actor now]

/-- `db.set_value("Agent Certificate", name, values)`; the name is the fingerprint. -/
def setRow (name : String) (f : CertificateRow → CertificateRow) (row : CertificateRow) :
    CertificateRow :=
  if row.certificate.fingerprintSha256 == name then f row else row

/-- The columns a rotation writes. -/
def startRotation (overlap : DateTime) (row : CertificateRow) : CertificateRow :=
  { row with status := .rotating, overlapUntil := some overlap }

/-- The columns a revocation writes. -/
def revoke (actor reason : String) (now : DateTime) (row : CertificateRow) : CertificateRow :=
  { row with
    status := .revoked
    overlapUntil := none
    revokedAt := some now
    revokedBy := some actor
    revocationReason := some reason }

/-- The locked rows of a rotation. -/
def lockRotation (agentId serial : String) (db : Tables) :
    Except Exc (AgentRow × CertificateRow) :=
  match db.agents.find? fun a => a.agentId == agentId && a.enabled, certificate? db agentId serial with
  | some agent, some (_, row) => do
    ensure (row.status == .active) (.controllerRequest "certificate_rotation_conflict")
    return (agent, row)
  | _, _ => .error (.controllerRequest "certificate_rotation_conflict")

/-- A request to replace a certificate. -/
structure Rotation where
  peer : TrustedPeer
  verified : VerifiedCSR
  issuance : CertificateIssuance
  actor : String
  overlapSeconds : ℤ
  now : DateTime

/-- `rotate_certificate` -/
def rotateCertificate (request : Rotation) (snapshot db : Tables) : Except Exc Tables := do
  ensure (decide (0 ≤ request.overlapSeconds ∧ request.overlapSeconds ≤ 300))
    (.python "certificate overlap exceeds policy")
  let agentId := request.verified.agentId
  authenticatePeer request.peer agentId agentId request.now snapshot
  ensure (request.issuance.publicKeySha256 == request.verified.publicKeySha256)
    (.controllerRequest "certificate_key_mismatch")
  let (agent, row) ← lockRotation agentId request.peer.certificateSerial db
  let overlap := request.now.addSeconds request.overlapSeconds.toNat
  let rows := db.certificates.map
    (setRow row.certificate.fingerprintSha256 (startRotation overlap))
  let rows ← insertRow agent.name request.issuance request.actor request.now rows
  return { db with certificates := rows }

/-- `revoke_certificate` -/
def revokeCertificate (agentId serial actor reason : String) (now : DateTime) (db : Tables) :
    Except Exc Tables :=
  match certificate? db agentId serial with
  | some (_, row) => do
    ensure (row.status != .revoked) (.controllerRequest "certificate_not_found")
    let rows := db.certificates.map
      (setRow row.certificate.fingerprintSha256 (revoke actor reason now))
    return { db with certificates := rows }
  | none => .error (.controllerRequest "certificate_not_found")

/-! ## Runs -/

/-- What changes the tables: an enrollment that completes, a rotation with any snapshot, a
revocation, and whatever others do to the agents. -/
inductive Label where
  | issue (serverAgent : String) (issuance : CertificateIssuance) (actor : String) (now : DateTime)
  | rotate (request : Rotation) (snapshot : Tables)
  | revoke (agentId serial actor reason : String) (now : DateTime)
  | agents (agents : List AgentRow)

def Step (db : Tables) : Label → Tables → Prop
  | .issue serverAgent issuance actor now, db' => ∃ rows,
    insertRow serverAgent issuance actor now db.certificates = .ok rows ∧
      db' = { db with certificates := rows }
  | .rotate request snapshot, db' => rotateCertificate request snapshot db = .ok db'
  | .revoke agentId serial actor reason now, db' =>
    revokeCertificate agentId serial actor reason now db = .ok db'
  | .agents agents, db' => db' = { db with agents }

/-- The certificate a step had issued. -/
def Label.issuance? : Label → Option CertificateIssuance
  | .issue _ issuance _ _ => some issuance
  | .rotate request _ => some request.issuance
  | _ => none

/-- The serial number of the certificate a step replaced, and when. -/
def Label.rotated? : Label → Option (String × DateTime)
  | .rotate request _ => some (request.peer.certificateSerial, request.now)
  | _ => none

/-- The serial number of the certificate a step revoked. -/
def Label.revoked? : Label → Option String
  | .revoke _ serial _ _ _ => some serial
  | _ => none

/-! ## What a step does to the rows -/

/-- What a step does to a row it finds. -/
structure Updated (l : Label) (row row' : CertificateRow) : Prop where
  certificate : row'.certificate = row.certificate
  revoked : l.revoked? = some row.certificate.serialNumber → row'.status = .revoked
  rotated : ∀ t, l.rotated? = some (row.certificate.serialNumber, t) → row.status = .active ∧
    row'.status = .rotating ∧ ∃ u, row'.overlapUntil = some u ∧ u ≤ t.addSeconds 300
  other : l.revoked? ≠ some row.certificate.serialNumber →
    (∀ t, l.rotated? ≠ some (row.certificate.serialNumber, t)) → row' = row

/-- The row is that of an issuance. -/
structure IssuedBy (issuance : CertificateIssuance) (row : CertificateRow) : Prop where
  serial : row.certificate.serialNumber = issuance.serial
  fingerprint : row.certificate.fingerprintSha256 = issuance.fingerprintSha256
  validFrom : row.certificate.validFrom = issuance.notBefore
  validUntil : row.certificate.validUntil = issuance.notAfter

/-- What a step does to all rows: it updates them and inserts at most one. -/
structure Changed (l : Label) (rows rows' : List CertificateRow) : Prop where
  split : ∃ g new, rows' = rows.map g ++ new ∧ (∀ row ∈ rows, Updated l row (g row)) ∧
    (new = [] ∨ ∃ row issuance, new = [row] ∧ l.issuance? = some issuance ∧
      IssuedBy issuance row ∧ ∀ old ∈ rows,
        old.certificate.serialNumber ≠ row.certificate.serialNumber ∧
        old.certificate.fingerprintSha256 ≠ row.certificate.fingerprintSha256)
  rotated : ∀ s t, l.rotated? = some (s, t) →
    ∃ row ∈ rows, row.certificate.serialNumber = s ∧ row.status = .active
  revoked : ∀ s, l.revoked? = some s → ∃ row ∈ rows, row.certificate.serialNumber = s

/-- The unique columns of the certificates. -/
structure Keyed (rows : List CertificateRow) : Prop where
  serials : (rows.map (·.certificate.serialNumber)).Nodup
  names : (rows.map (·.certificate.fingerprintSha256)).Nodup

theorem mem_of_certificate? {db : Tables} {agentId serial : String} {agent : AgentRow}
    {row : CertificateRow} (h : certificate? db agentId serial = some (agent, row)) :
    row ∈ db.certificates ∧ row.certificate.serialNumber = serial ∧ agent ∈ db.agents ∧
      agent.name = row.certificate.serverAgent ∧ agent.agentId = agentId := by
  obtain ⟨c, hc, hfound⟩ := List.exists_of_findSome?_eq_some h
  obtain ⟨a, ha, hpair⟩ := Option.map_eq_some_iff.mp hfound
  have hsame : a = agent ∧ c = row := by simpa using hpair
  obtain ⟨rfl, rfl⟩ := hsame
  have hkeys := List.find?_some ha
  have hmem := List.mem_filter.mp hc
  simp only [Bool.and_eq_true, beq_iff_eq] at hkeys hmem
  exact ⟨hmem.1, hmem.2, List.mem_of_find?_eq_some ha, hkeys.1, hkeys.2⟩

theorem insertRow_eq_ok {serverAgent actor : String} {issuance : CertificateIssuance}
    {now : DateTime} {rows rows' : List CertificateRow}
    (h : insertRow serverAgent issuance actor now rows = .ok rows') :
    rows' = rows ++ [newRow serverAgent issuance actor now] ∧ ∀ old ∈ rows,
      old.certificate.serialNumber ≠ issuance.serial ∧
      old.certificate.fingerprintSha256 ≠ issuance.fingerprintSha256 := by
  unfold insertRow at h
  obtain ⟨certificates, hinsert, hreturn⟩ := Transaction.bind_eq_ok.mp h
  unfold insertCertificate at hinsert
  obtain ⟨-, -, hrest⟩ := Transaction.bind_eq_ok.mp hinsert
  obtain ⟨_, hfree, _⟩ := Transaction.bind_eq_ok.mp hrest
  have hfree' := ensure_eq_ok.mp hfree
  refine ⟨(Except.ok.inj hreturn).symm, fun old hold => ?_⟩
  have hold' := List.all_eq_true.mp hfree' old.certificate (List.mem_map_of_mem hold)
  simp only [Bool.and_eq_true, bne_iff_ne, ne_eq] at hold'
  exact ⟨hold'.2, hold'.1⟩

end Certificates
end FrappeController
