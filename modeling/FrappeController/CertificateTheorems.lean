import FrappeController.Certificates

/-!
# Which certificates authenticate a peer

Over every run of the certificate store, a peer is authenticated only by a certificate that was
issued to it, within its validity; a revocation is final, and a certificate is rotated once and
then outlives its rotation by five minutes at most (`certificates_standing`).
-/

namespace FrappeController
namespace Certificates

variable {l : Label} {ls : List Label} {db db' : Tables} {rows rows' : List CertificateRow}
  {row : CertificateRow}

/-! ## What a step does -/

theorem updated_self (hrevoked : l.revoked? = none) (hrotated : l.rotated? = none) :
    Updated l row row where
  certificate := rfl
  revoked h := by
    rw [hrevoked] at h
    cases h
  rotated t h := by
    rw [hrotated] at h
    cases h
  other _ _ := rfl

/-- A row is set by its name; the others have other serial numbers. -/
theorem setRow_cases {r : CertificateRow} {f : CertificateRow → CertificateRow}
    (hkeyed : Keyed rows) (hrow : row ∈ rows) (hr : r ∈ rows) :
    (r = row ∧ setRow row.certificate.fingerprintSha256 f r = f row) ∨
      (r.certificate.serialNumber ≠ row.certificate.serialNumber ∧
        setRow row.certificate.fingerprintSha256 f r = r) := by
  by_cases hname : r.certificate.fingerprintSha256 = row.certificate.fingerprintSha256
  · left
    have hsame : r = row := List.inj_on_of_nodup_map hkeyed.names hr hrow hname
    refine ⟨hsame, ?_⟩
    unfold setRow
    rw [if_pos (by simpa using hname), hsame]
  · right
    refine ⟨fun hserial => hname ?_, ?_⟩
    · have hsame : r = row := List.inj_on_of_nodup_map hkeyed.serials hr hrow hserial
      rw [hsame]
    · unfold setRow
      exact if_neg (by simpa using hname)

theorem changed_issue {serverAgent actor : String} {issuance : CertificateIssuance}
    {now : DateTime} (h : insertRow serverAgent issuance actor now rows = .ok rows') :
    Changed (.issue serverAgent issuance actor now) rows rows' := by
  obtain ⟨hrows, hfree⟩ := insertRow_eq_ok h
  refine ⟨⟨id, [newRow serverAgent issuance actor now], ?_, ?_, ?_⟩, ?_, ?_⟩
  · rw [hrows, List.map_id]
  · exact fun row _ => updated_self rfl rfl
  · exact .inr ⟨_, issuance, rfl, rfl, ⟨rfl, rfl, rfl, rfl⟩, hfree⟩
  · intro s t hrotated
    cases hrotated
  · intro s hrevoked
    cases hrevoked

theorem lockRotation_eq_ok {agentId serial : String} {agent : AgentRow}
    (h : lockRotation agentId serial db = .ok (agent, row)) : row ∈ db.certificates ∧
      row.certificate.serialNumber = serial ∧ row.status = .active := by
  unfold lockRotation at h
  split at h
  · rename_i found other row₀ _ hcertificate
    obtain ⟨_, hactive, hreturn⟩ := Transaction.bind_eq_ok.mp h
    have hpair : found = agent ∧ row₀ = row := by
      simpa using Except.ok.inj hreturn
    obtain ⟨-, rfl⟩ := hpair
    obtain ⟨hmem, hserial, -⟩ := mem_of_certificate? hcertificate
    exact ⟨hmem, hserial, by simpa using ensure_eq_ok.mp hactive⟩
  · cases h

theorem changed_rotate {request : Rotation} {snapshot : Tables} (hkeyed : Keyed db.certificates)
    (h : rotateCertificate request snapshot db = .ok db') :
    Changed (.rotate request snapshot) db.certificates db'.certificates := by
  unfold rotateCertificate at h
  obtain ⟨_, hoverlap, h⟩ := Transaction.bind_eq_ok.mp h
  obtain ⟨-, -, h⟩ := Transaction.bind_eq_ok.mp h
  obtain ⟨-, -, h⟩ := Transaction.bind_eq_ok.mp h
  obtain ⟨⟨agent, row⟩, hlock, h⟩ := Transaction.bind_eq_ok.mp h
  obtain ⟨rows, hinsert, hreturn⟩ := Transaction.bind_eq_ok.mp h
  obtain ⟨hmem, hserial, hactive⟩ := lockRotation_eq_ok hlock
  obtain ⟨hrows, hfree⟩ := insertRow_eq_ok hinsert
  have hdb' : db'.certificates = rows := by
    rw [← Except.ok.inj hreturn]
  -- the policy of the request bounds the overlap
  have hbound : request.overlapSeconds.toNat ≤ 300 := by
    have hpolicy : 0 ≤ request.overlapSeconds ∧ request.overlapSeconds ≤ 300 := by
      simpa using ensure_eq_ok.mp hoverlap
    omega
  refine ⟨⟨_, _, hdb'.trans hrows, fun r hr => ?_, .inr ⟨_, request.issuance, rfl, rfl,
    ⟨rfl, rfl, rfl, rfl⟩, fun old hold => ?_⟩⟩, fun s t hrotated => ?_, fun s hrevoked => ?_⟩
  -- the rotated row starts its overlap, the others stay
  · rcases setRow_cases (f := startRotation
        (request.now.addSeconds request.overlapSeconds.toNat)) hkeyed hmem hr with
      ⟨rfl, hset⟩ | ⟨hne, hset⟩
    · rw [hset]
      refine ⟨rfl, fun hrevoked => ?_, fun t hrotated => ?_, fun _ hother => ?_⟩
      · cases hrevoked
      · have hnow : t = request.now := by
          have hpair : request.peer.certificateSerial = r.certificate.serialNumber ∧
              request.now = t := by
            simpa [Label.rotated?] using hrotated
          exact hpair.2.symm
        refine ⟨hactive, rfl, _, rfl, ?_⟩
        rw [hnow]
        show request.now.micros + request.overlapSeconds.toNat * 1000000
          ≤ request.now.micros + 300 * 1000000
        omega
      · refine absurd ?_ (hother request.now)
        rw [hserial]
        rfl
    · rw [hset]
      refine ⟨rfl, fun hrevoked => ?_, fun t hrotated => ?_, fun _ _ => rfl⟩
      · cases hrevoked
      · have hpair : request.peer.certificateSerial = r.certificate.serialNumber ∧
            request.now = t := by
          simpa [Label.rotated?] using hrotated
        exact absurd (hpair.1.symm.trans hserial.symm) hne
  -- the new certificate has a fingerprint that no row has
  · have hfree' := hfree (setRow row.certificate.fingerprintSha256
      (startRotation (request.now.addSeconds request.overlapSeconds.toNat)) old)
      (List.mem_map_of_mem hold)
    have hsame : (setRow row.certificate.fingerprintSha256 (startRotation
        (request.now.addSeconds request.overlapSeconds.toNat)) old).certificate
          = old.certificate := by
      unfold setRow
      split <;> rfl
    rw [hsame] at hfree'
    exact hfree'
  · have hpair : request.peer.certificateSerial = s ∧ request.now = t := by
      simpa [Label.rotated?] using hrotated
    exact ⟨row, hmem, hserial.trans hpair.1, hactive⟩
  · cases hrevoked

theorem changed_revoke {agentId serial actor reason : String} {now : DateTime}
    (hkeyed : Keyed db.certificates)
    (h : revokeCertificate agentId serial actor reason now db = .ok db') :
    Changed (.revoke agentId serial actor reason now) db.certificates db'.certificates := by
  unfold revokeCertificate at h
  split at h
  · rename_i agent row hcertificate
    obtain ⟨-, -, hreturn⟩ := Transaction.bind_eq_ok.mp h
    obtain ⟨hmem, hserial, -⟩ := mem_of_certificate? hcertificate
    have hdb' : db'.certificates = db.certificates.map
        (setRow row.certificate.fingerprintSha256 (revoke actor reason now)) := by
      rw [← Except.ok.inj hreturn]
    refine ⟨⟨_, [], hdb'.trans (List.append_nil _).symm, fun r hr => ?_, .inl rfl⟩,
      fun s t hrotated => ?_, fun s hrevoked => ?_⟩
    -- the revoked row, and every other one
    · rcases setRow_cases (f := revoke actor reason now) hkeyed hmem hr with
        ⟨rfl, hset⟩ | ⟨hne, hset⟩
      · rw [hset]
        refine ⟨rfl, fun _ => rfl, fun t hrotated => ?_, fun hother _ => ?_⟩
        · cases hrotated
        · refine absurd ?_ hother
          rw [hserial]
          rfl
      · rw [hset]
        refine ⟨rfl, fun hrevoked => ?_, fun t hrotated => ?_, fun _ _ => rfl⟩
        · have hsame : serial = r.certificate.serialNumber := by
            simpa [Label.revoked?] using hrevoked
          exact absurd (hsame.symm.trans hserial.symm) hne
        · cases hrotated
    · cases hrotated
    · have hsame : serial = s := by
        simpa [Label.revoked?] using hrevoked
      exact ⟨row, hmem, hserial.trans hsame⟩
  · cases h

theorem step_changed (hkeyed : Keyed db.certificates) (h : Step db l db') :
    Changed l db.certificates db'.certificates := by
  cases l with
  | issue serverAgent issuance actor now =>
    obtain ⟨rows, hinsert, rfl⟩ := h
    exact changed_issue hinsert
  | rotate request snapshot => exact changed_rotate hkeyed h
  | revoke agentId serial actor reason now => exact changed_revoke hkeyed h
  | agents agents =>
    have hdb' : db' = { db with agents } := h
    rw [hdb']
    refine ⟨⟨id, [], ?_, fun row _ => updated_self rfl rfl, .inl rfl⟩, ?_, ?_⟩
    · rw [List.map_id, List.append_nil]
    · intro s t hrotated
      cases hrotated
    · intro s hrevoked
      cases hrevoked

/-! ## What holds after every run -/

/-- The serial numbers of the certificates that were rotated, one for each rotation. -/
def rotations (ls : List Label) : List String :=
  ls.filterMap fun l => l.rotated?.map Prod.fst

/-- A row tells what the steps before did to its certificate. -/
structure Tracked (ls : List Label) (row : CertificateRow) : Prop where
  issued : ∃ l ∈ ls, ∃ issuance, l.issuance? = some issuance ∧ IssuedBy issuance row
  revoked : ∀ l ∈ ls, l.revoked? = some row.certificate.serialNumber → row.status = .revoked
  rotated : ∀ l ∈ ls, ∀ t, l.rotated? = some (row.certificate.serialNumber, t) →
    row.status = .revoked ∨
      row.status = .rotating ∧ ∃ u, row.overlapUntil = some u ∧ u ≤ t.addSeconds 300

structure Inv (ls : List Label) (db : Tables) : Prop where
  keyed : Keyed db.certificates
  tracked : ∀ row ∈ db.certificates, Tracked ls row
  /-- What was rotated or revoked is in the table. -/
  known : ∀ l ∈ ls, ∀ s, (l.revoked? = some s ∨ ∃ t, l.rotated? = some (s, t)) →
    ∃ row ∈ db.certificates, row.certificate.serialNumber = s
  once : (rotations ls).Nodup

theorem Changed.keyed (hkeyed : Keyed rows) (h : Changed l rows rows') : Keyed rows' := by
  obtain ⟨g, new, hrows', hupdated, hnew⟩ := h.split
  have hkept : ∀ f : AgentRequests.AgentCertificate → String,
      (rows.map g).map (fun row => f row.certificate) = rows.map fun row => f row.certificate := by
    intro f
    rw [List.map_map]
    refine List.map_congr_left fun row hrow => ?_
    exact congrArg f (hupdated row hrow).certificate
  rcases hnew with rfl | ⟨row, issuance, rfl, -, -, hfree⟩
  · rw [hrows', List.append_nil]
    refine ⟨?_, ?_⟩
    · rw [hkept fun c => c.serialNumber]
      exact hkeyed.serials
    · rw [hkept fun c => c.fingerprintSha256]
      exact hkeyed.names
  · have hdistinct : ∀ f : AgentRequests.AgentCertificate → String,
        (rows.map fun row => f row.certificate).Nodup →
        (∀ old ∈ rows, f old.certificate ≠ f row.certificate) →
        ((rows.map g ++ [row]).map fun row => f row.certificate).Nodup := by
      intro f hnodup hne
      rw [List.map_append, hkept f, List.map_singleton, List.nodup_append]
      refine ⟨hnodup, List.nodup_singleton _, fun a ha b hb heq => ?_⟩
      obtain ⟨old, hold, rfl⟩ := List.mem_map.mp ha
      exact hne old hold (heq.trans (List.mem_singleton.mp hb))
    rw [hrows']
    exact ⟨hdistinct (·.serialNumber) hkeyed.serials fun old hold => (hfree old hold).1,
      hdistinct (·.fingerprintSha256) hkeyed.names fun old hold => (hfree old hold).2⟩

theorem tracked_updated {row' : CertificateRow} (htracked : Tracked ls row)
    (h : Updated l row row') : Tracked (ls ++ [l]) row' := by
  -- what became of a row that was revoked or rotated before
  have hlater : row.status ≠ .active → row'.status = .revoked ∨ row' = row := by
    intro hstatus
    by_cases hrevoked : l.revoked? = some row.certificate.serialNumber
    · exact .inl (h.revoked hrevoked)
    · refine .inr (h.other hrevoked fun t hrotated => ?_)
      exact hstatus (h.rotated t hrotated).1
  refine ⟨?_, fun l' hl' hrevoked => ?_, fun l' hl' t hrotated => ?_⟩
  · obtain ⟨l', hl', issuance, hissuance, hissued⟩ := htracked.issued
    refine ⟨l', List.mem_append_left _ hl', issuance, hissuance, ?_⟩
    obtain ⟨hserial, hfingerprint, hfrom, huntil⟩ := hissued
    rw [← h.certificate] at hserial hfingerprint hfrom huntil
    exact ⟨hserial, hfingerprint, hfrom, huntil⟩
  · rw [h.certificate] at hrevoked
    rcases List.mem_append.mp hl' with hold | hlast
    · have hstatus : row.status = .revoked := htracked.revoked l' hold hrevoked
      rcases hlater (by rw [hstatus]; decide) with hrevoked' | hsame
      · exact hrevoked'
      · rw [hsame]
        exact hstatus
    · rw [List.mem_singleton.mp hlast] at hrevoked
      exact h.revoked hrevoked
  · rw [h.certificate] at hrotated
    rcases List.mem_append.mp hl' with hold | hlast
    · have hstatus := htracked.rotated l' hold t hrotated
      have hinactive : row.status ≠ .active := by
        rcases hstatus with hrevoked | ⟨hrotating, -⟩
        · rw [hrevoked]
          decide
        · rw [hrotating]
          decide
      rcases hlater hinactive with hrevoked' | hsame
      · exact .inl hrevoked'
      · rw [hsame]
        exact hstatus
    · rw [List.mem_singleton.mp hlast] at hrotated
      exact .inr (h.rotated t hrotated).2

theorem Inv.step (hinv : Inv ls db) (h : Step db l db') : Inv (ls ++ [l]) db' := by
  have hchanged := step_changed hinv.keyed h
  obtain ⟨g, new, hrows', hupdated, hnew⟩ := hchanged.split
  -- the certificates a step is about were there before
  have hknown : ∀ l' ∈ ls ++ [l], ∀ s, (l'.revoked? = some s ∨ ∃ t, l'.rotated? = some (s, t)) →
      ∃ row ∈ db.certificates, row.certificate.serialNumber = s := by
    intro l' hl' s hsubject
    rcases List.mem_append.mp hl' with hold | hlast
    · exact hinv.known l' hold s hsubject
    · rw [List.mem_singleton.mp hlast] at hsubject
      rcases hsubject with hrevoked | ⟨t, hrotated⟩
      · exact hchanged.revoked s hrevoked
      · obtain ⟨row, hrow, hserial, -⟩ := hchanged.rotated s t hrotated
        exact ⟨row, hrow, hserial⟩
  refine ⟨hchanged.keyed hinv.keyed, fun row' hrow' => ?_, fun l' hl' s hsubject => ?_, ?_⟩
  · rw [hrows'] at hrow'
    rcases List.mem_append.mp hrow' with hold | hinserted
    · obtain ⟨row, hrow, rfl⟩ := List.mem_map.mp hold
      exact tracked_updated (hinv.tracked row hrow) (hupdated row hrow)
    · rcases hnew with rfl | ⟨row, issuance, rfl, hissuance, hissued, hfree⟩
      · cases hinserted
      · rw [List.mem_singleton.mp hinserted]
        refine ⟨⟨l, by simp, issuance, hissuance, hissued⟩, fun l' hl' hrevoked => ?_,
          fun l' hl' t hrotated => ?_⟩
        · obtain ⟨old, hold, hserial⟩ := hknown l' hl' _ (.inl hrevoked)
          exact absurd hserial (hfree old hold).1
        · obtain ⟨old, hold, hserial⟩ := hknown l' hl' _ (.inr ⟨t, hrotated⟩)
          exact absurd hserial (hfree old hold).1
  · obtain ⟨row, hrow, hserial⟩ := hknown l' hl' s hsubject
    refine ⟨g row, ?_, ?_⟩
    · rw [hrows']
      exact List.mem_append_left _ (List.mem_map_of_mem hrow)
    · rw [(hupdated row hrow).certificate]
      exact hserial
  · have hsplit : rotations (ls ++ [l]) = rotations ls ++ rotations [l] :=
      List.filterMap_append
    rw [hsplit]
    cases hlast : l.rotated? with
    | none =>
      have hnone : rotations [l] = [] := by
        simp [rotations, hlast]
      rw [hnone, List.append_nil]
      exact hinv.once
    | some rotation =>
      obtain ⟨s, t⟩ := rotation
      have hone : rotations [l] = [s] := by
        simp [rotations, hlast]
      rw [hone, List.nodup_append]
      refine ⟨hinv.once, List.nodup_singleton s, fun a ha b hb heq => ?_⟩
      -- a certificate that is rotated is active, so it was not rotated before
      obtain ⟨row, hrow, hserial, hactive⟩ := hchanged.rotated s t hlast
      have hs : s ∈ rotations ls := by
        rw [← List.mem_singleton.mp hb, ← heq]
        exact ha
      obtain ⟨l', hl', hfirst⟩ := List.mem_filterMap.mp hs
      obtain ⟨⟨s', t'⟩, hrotated, hsame⟩ := Option.map_eq_some_iff.mp hfirst
      have hserial' : s' = row.certificate.serialNumber := hsame.trans hserial.symm
      rw [hserial'] at hrotated
      rcases (hinv.tracked row hrow).rotated l' hl' t' hrotated with hrevoked | ⟨hrotating, -⟩
      · rw [hactive] at hrevoked
        cases hrevoked
      · rw [hactive] at hrotating
        cases hrotating

theorem inv_of_run {agents : List AgentRow} (hrun : Run Step ⟨agents, []⟩ ls db) : Inv ls db := by
  induction hrun with
  | nil =>
    refine ⟨⟨List.nodup_nil, List.nodup_nil⟩, fun row hrow => ?_, fun l hl => ?_, List.nodup_nil⟩
    · cases hrow
    · cases hl
  | snoc _ hlast ih => exact ih.step hlast

/-- What stands behind a certificate that authenticates a peer. -/
structure Standing (ls : List Label) (peer : TrustedPeer) (now : DateTime) : Prop where
  issued : ∃ l ∈ ls, ∃ issuance, l.issuance? = some issuance ∧
    issuance.serial = peer.certificateSerial ∧
    issuance.fingerprintSha256 = peer.certificateFingerprintSha256 ∧
    issuance.notBefore ≤ now ∧ now < issuance.notAfter
  unrevoked : ∀ l ∈ ls, l.revoked? ≠ some peer.certificateSerial
  overlap : ∀ l ∈ ls, ∀ t, l.rotated? = some (peer.certificateSerial, t) →
    now < t.addSeconds 300

theorem authenticatePeer_eq_ok {peer : TrustedPeer} {pathAgentId bodyAgentId : String}
    {now : DateTime} (h : authenticatePeer peer pathAgentId bodyAgentId now db = .ok ()) :
    ∃ agent row, certificate? db pathAgentId peer.certificateSerial = some (agent, row) ∧
      authorizes peer.certificateFingerprintSha256 now agent row = true := by
  unfold authenticatePeer at h
  obtain ⟨-, -, hrest⟩ := Transaction.bind_eq_ok.mp h
  have hfound := ensure_eq_ok.mp hrest
  cases hcertificate : certificate? db pathAgentId peer.certificateSerial with
  | none =>
    rw [hcertificate] at hfound
    cases hfound
  | some found =>
    rw [hcertificate] at hfound
    exact ⟨found.1, found.2, rfl, hfound⟩

theorem Inv.standing {peer : TrustedPeer} {pathAgentId bodyAgentId : String} {now : DateTime}
    (hinv : Inv ls db) (h : authenticatePeer peer pathAgentId bodyAgentId now db = .ok ()) :
    Standing ls peer now := by
  obtain ⟨agent, row, hcertificate, hauthorizes⟩ := authenticatePeer_eq_ok h
  obtain ⟨hmem, hserial, -⟩ := mem_of_certificate? hcertificate
  have htracked := hinv.tracked row hmem
  unfold authorizes at hauthorizes
  simp only [Bool.and_eq_true, Bool.or_eq_true, beq_iff_eq, decide_eq_true_eq] at hauthorizes
  obtain ⟨⟨⟨-, hfingerprint⟩, hstatus⟩, hfrom, huntil⟩ := hauthorizes
  -- neither status that authorizes is the revoked one
  have hunrevoked : row.status ≠ .revoked := by
    rcases hstatus with hactive | ⟨hrotating, -⟩
    · rw [hactive]
      decide
    · rw [hrotating]
      decide
  refine ⟨?_, fun l hl hrevoked => ?_, fun l hl t hrotated => ?_⟩
  · obtain ⟨l, hl, issuance, hissuance, hissued⟩ := htracked.issued
    refine ⟨l, hl, issuance, hissuance, ?_, ?_, ?_, ?_⟩
    · exact hissued.serial.symm.trans hserial
    · exact hissued.fingerprint.symm.trans hfingerprint
    · rw [← hissued.validFrom]
      exact hfrom
    · rw [← hissued.validUntil]
      exact huntil
  · rw [← hserial] at hrevoked
    exact hunrevoked (htracked.revoked l hl hrevoked)
  · rw [← hserial] at hrotated
    rcases htracked.rotated l hl t hrotated with hrevoked | ⟨hrotating, u, hu, hbound⟩
    · exact absurd hrevoked hunrevoked
    -- after a rotation only the overlap is left
    · rcases hstatus with hactive | ⟨-, hoverlap⟩
      · rw [hactive] at hrotating
        cases hrotating
      · rw [hu] at hoverlap
        have hnow : now < u := by simpa using hoverlap
        have hmicros : now.micros < u.micros := hnow
        have hbound' : u.micros ≤ (t.addSeconds 300).micros := hbound
        show now.micros < (t.addSeconds 300).micros
        omega

/-- In every run of the store from no certificates, whoever is authenticated by a certificate has
one that was issued, is within its validity, was never revoked, and was rotated less than five
minutes ago if at all; and no certificate is rotated twice. -/
theorem certificates_standing {agents : List AgentRow} {peer : TrustedPeer}
    {pathAgentId bodyAgentId : String} {now : DateTime} (hrun : Run Step ⟨agents, []⟩ ls db)
    (h : authenticatePeer peer pathAgentId bodyAgentId now db = .ok ()) :
    Standing ls peer now ∧ (rotations ls).Nodup := by
  have hinv : Inv ls db := inv_of_run hrun
  exact ⟨hinv.standing h, hinv.once⟩

namespace Sample

def agents : List AgentRow := [⟨"agent-1", "agent-1", true⟩]

def digest : String := "9f86d081884c7d659a2feaa0c55ad015a3bf4f1b2b0b822cd15d6c15b0f00a08"

def verified : VerifiedCSR where
  agentId := "agent-1"
  publicKeySha256 := digest
  csrSha256 := digest
  valid := by decide +kernel

def fingerprint : String := "2c26b46b68ffc68ff99b453c1d30413413422d706483bfa0f98a5e886266e7ae"

def nextFingerprint : String := "fcde2b2edba56bf408601fb721fe9b5c338d10ee429ea04fae5511b68fbf8fb9"

/-- Two certificates for the first two hours. -/
def first : CertificateIssuance := ⟨"0a", fingerprint, digest, ⟨0⟩, ⟨7200000000⟩⟩

def second : CertificateIssuance := ⟨"0b", nextFingerprint, digest, ⟨0⟩, ⟨7200000000⟩⟩

def peer : TrustedPeer := ⟨"agent-1", "0a", fingerprint⟩

def enrolled : Tables := ⟨agents, [newRow "agent-1" first "ca" ⟨0⟩]⟩

/-- The first certificate is rotated after a second, with an overlap of two minutes. -/
def rotation : Rotation := ⟨peer, verified, second, "agent:agent-1", 120, ⟨1000000⟩⟩

def rotated : Tables where
  agents := agents
  certificates :=
    [startRotation ⟨121000000⟩ (newRow "agent-1" first "ca" ⟨0⟩),
      newRow "agent-1" second "agent:agent-1" ⟨1000000⟩]

def labels : List Label := [.issue "agent-1" first "ca" ⟨0⟩, .rotate rotation enrolled]

theorem run_rotated : Run Step ⟨agents, []⟩ labels rotated := by
  have hissue : Step ⟨agents, []⟩ (.issue "agent-1" first "ca" ⟨0⟩) enrolled := ⟨_, rfl, rfl⟩
  have hrotate : Step enrolled (.rotate rotation enrolled) rotated := by
    show rotateCertificate rotation enrolled enrolled = .ok rotated
    rfl
  exact (Run.single hissue).snoc hrotate

/-- A minute later the rotated certificate still authenticates its peer. -/
theorem authenticated :
    authenticatePeer peer "agent-1" "agent-1" ⟨61000000⟩ rotated = .ok () := rfl

end Sample

theorem certificates_standing_sample :
    Standing Sample.labels Sample.peer ⟨61000000⟩ ∧ (rotations Sample.labels).Nodup :=
  certificates_standing Sample.run_rotated Sample.authenticated

end Certificates
end FrappeController
