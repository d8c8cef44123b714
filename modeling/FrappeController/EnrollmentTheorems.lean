import FrappeController.AgentRuns
import FrappeController.StoreEnrollment
import FrappeController.DispatcherTheorems

/-!
# Enrollment tokens are used once

Each raw token is followed through a run as a one-time token: where it stands is read off the
row of its agent (`Enrollment.life`), and every accepted request moves it as such a token may
move (`Enrollment.step_move`).
-/

namespace FrappeController
namespace Enrollment

open AgentRequests hiding check
open AgentRuns (Keyed check_eq_ok lockAgent_eq_ok setAgent_eq_ok)
open FrappeInventory (Session agent? readForUpdate_eq_ok)
open Transaction (bind_apply_eq_ok query_eq_ok)
open OneTime (Life Event Move Sound)

/-- What the code relies on: digests of different tokens differ, and none is empty. -/
structure TokenHash (C : Crypto) : Prop where
  injective : Function.Injective C.tokenHash
  nonempty : ∀ rawToken, C.tokenHash rawToken ≠ ""

variable (C : Crypto)

/-! ## The writes -/

/-- The columns a new token writes. -/
def issueToken (actor : String) (ttlSeconds : ℤ) (rawToken : String) (now : DateTime)
    (a : ServerAgent) : ServerAgent :=
  { a with
    enrollmentTokenHash := some (C.tokenHash rawToken)
    enrollmentExpiresAt := some (now.addSeconds ttlSeconds.toNat)
    enrollmentTokenCreatedAt := some now, enrollmentTokenCreatedBy := some actor
    enrollmentConsumedAt := none, enrollmentCompletedAt := none }

/-- The columns a completion writes. -/
def completeToken (now : DateTime) (a : ServerAgent) : ServerAgent :=
  { a with enrollmentCompletedAt := some now, enabled := true, status := .offline }

section Writes

variable {C} {s s' : Session} {agentId rawToken : String} {now : DateTime}

/-- The digest of an accepted token is that of its text. -/
theorem tokenHash_eq_ok {hash : String} (h : AgentRequests.tokenHash C rawToken = .ok hash) :
    hash = C.tokenHash rawToken := by
  unfold AgentRequests.tokenHash at h
  simp only [Transaction.bind_eq_ok, ensure_eq_ok] at h
  obtain ⟨-, -, h⟩ := h
  exact (Except.ok.inj h).symm

/-- A locked agent is the row of its id. -/
theorem lockAgent_agent? {row : ServerAgent} {db : Database}
    (h : AgentRequests.lockAgent agentId db = .ok row) : agent? db agentId = some row := by
  unfold AgentRequests.lockAgent at h
  split at h
  · cases h
  · rename_i found hfound
    cases h
    exact hfound

/-- A new token is written to the row of its agent and nowhere else. -/
theorem createEnrollmentToken_writes {actor token : String} {ttlSeconds : ℤ}
    (h : createEnrollmentToken C agentId actor ttlSeconds rawToken now s = .ok token s') :
    ∃ row, agent? s.current agentId = some row ∧ s'.current.agents =
      Table.setValue row.name (issueToken C actor ttlSeconds rawToken now) s.current.agents := by
  unfold createEnrollmentToken at h
  obtain ⟨⟨⟩, s₁, hagent, h₁⟩ := bind_apply_eq_ok.mp h
  obtain ⟨-, rfl⟩ := check_eq_ok.mp hagent
  obtain ⟨⟨⟩, s₂, hpolicy, h₂⟩ := bind_apply_eq_ok.mp h₁
  obtain ⟨-, rfl⟩ := check_eq_ok.mp hpolicy
  obtain ⟨row, s₃, hlock, h₃⟩ := bind_apply_eq_ok.mp h₂
  obtain ⟨hfound, rfl⟩ := readForUpdate_eq_ok.mp hlock
  obtain ⟨hash, s₄, hquery, h₄⟩ := bind_apply_eq_ok.mp h₃
  obtain ⟨hhash, rfl⟩ := query_eq_ok.mp hquery
  obtain ⟨⟨⟩, s₅, hset, h₅⟩ := bind_apply_eq_ok.mp h₄
  cases h₅
  rw [tokenHash_eq_ok hhash] at hset
  exact ⟨row, lockAgent_agent? hfound, setAgent_eq_ok hset⟩

/-- What the checks before a key is pinned have seen. -/
theorem checkEnrollment_eq_ok {key : String} {row : ServerAgent} {pinned : Bool}
    (h : checkEnrollment C rawToken key now row = .ok pinned) :
    row.enrollmentTokenHash.getD "" = C.tokenHash rawToken ∧
    (∃ expires, row.enrollmentExpiresAt = some expires ∧ now < expires) ∧
    pinned = row.enrollmentConsumedAt.isSome ∧
    (pinned = true → row.enrollmentCompletedAt.isSome ∧
      row.signingPublicKeyEd25519.getD "" = key) := by
  unfold checkEnrollment at h
  simp only [Transaction.bind_eq_ok, ensure_eq_ok] at h
  obtain ⟨hash, hhash, -, hsame, -, hexpires, h⟩ := h
  rw [tokenHash_eq_ok hhash] at hsame
  refine ⟨eq_of_beq hsame, ?_, ?_⟩
  · cases hcolumn : row.enrollmentExpiresAt with
    | none =>
      rw [hcolumn] at hexpires
      cases hexpires
    | some expires =>
      rw [hcolumn] at hexpires
      exact ⟨expires, rfl, of_decide_eq_true hexpires⟩
  · by_cases hconsumed : row.enrollmentConsumedAt.isSome = true
    · rw [if_pos hconsumed] at h
      simp only [Transaction.bind_eq_ok, ensure_eq_ok, Bool.and_eq_true, beq_iff_eq] at h
      obtain ⟨-, hkey, hpinned⟩ := h
      cases hpinned
      exact ⟨hconsumed.symm, fun _ => hkey⟩
    · rw [if_neg hconsumed] at h
      cases h
      exact ⟨by simpa using hconsumed, fun h => by cases h⟩

/-- A signing key is pinned on the row that stores the token, before its expiry. -/
theorem completeSigningKeyEnrollment_writes {key : String} {u : Unit}
    (h : completeSigningKeyEnrollment C rawToken agentId key now s = .ok u s') :
    ∃ row, agent? s.current agentId = some row ∧
      row.enrollmentTokenHash.getD "" = C.tokenHash rawToken ∧
      (∃ expires, row.enrollmentExpiresAt = some expires ∧ now < expires) ∧
      if row.enrollmentConsumedAt.isSome then
        row.signingPublicKeyEd25519.getD "" = key ∧ s' = s
      else s'.current.agents = Table.setValue row.name (pinKey C key now) s.current.agents := by
  unfold completeSigningKeyEnrollment at h
  obtain ⟨⟨⟩, s₁, hagent, h₁⟩ := bind_apply_eq_ok.mp h
  obtain ⟨-, rfl⟩ := check_eq_ok.mp hagent
  obtain ⟨⟨⟩, s₂, hlength, h₂⟩ := bind_apply_eq_ok.mp h₁
  obtain ⟨-, rfl⟩ := check_eq_ok.mp hlength
  obtain ⟨row, s₃, hlock, h₃⟩ := bind_apply_eq_ok.mp h₂
  obtain ⟨hfound, rfl⟩ := readForUpdate_eq_ok.mp hlock
  obtain ⟨pinned, s₄, hquery, h₄⟩ := bind_apply_eq_ok.mp h₃
  obtain ⟨hcheck, rfl⟩ := query_eq_ok.mp hquery
  obtain ⟨hhash, hexpires, hpinned, hkey⟩ := checkEnrollment_eq_ok hcheck
  refine ⟨row, lockAgent_agent? hfound, hhash, hexpires, ?_⟩
  rw [← hpinned]
  cases pinned with
  | true =>
    cases h₄
    exact ⟨(hkey rfl).2, rfl⟩
  | false => exact setAgent_eq_ok h₄

/-- A certificate request claims the token on the row that stores it, before its expiry. -/
theorem claimEnrollmentToken_writes {verified : VerifiedCSR} {u : Unit}
    (h : claimEnrollmentToken C rawToken verified now s = .ok u s') :
    ∃ row, agent? s.current verified.agentId = some row ∧
      row.enrollmentTokenHash.getD "" = C.tokenHash rawToken ∧
      row.enrollmentConsumedAt = none ∧
      (∃ expires, row.enrollmentExpiresAt = some expires ∧ now < expires) ∧
      (row.expectedPublicKeySha256.getD "" = "" ∨
        row.expectedPublicKeySha256.getD "" = verified.publicKeySha256) ∧
      s'.current.agents = Table.setValue row.name (claimKey verified now) s.current.agents := by
  unfold claimEnrollmentToken at h
  obtain ⟨row, s₁, hlock, h₁⟩ := bind_apply_eq_ok.mp h
  obtain ⟨hfound, rfl⟩ := readForUpdate_eq_ok.mp hlock
  obtain ⟨⟨⟩, s₂, hquery, h₂⟩ := bind_apply_eq_ok.mp h₁
  obtain ⟨hcheck, rfl⟩ := query_eq_ok.mp hquery
  unfold checkClaim at hcheck
  simp only [Transaction.bind_eq_ok, ensure_eq_ok, Bool.or_eq_true, beq_iff_eq] at hcheck
  obtain ⟨hash, hhash, -, hsame, -, hunused, -, hexpires, hkey⟩ := hcheck
  rw [tokenHash_eq_ok hhash] at hsame
  refine ⟨row, lockAgent_agent? hfound, hsame, by simpa using hunused, ?_, hkey,
    setAgent_eq_ok h₂⟩
  cases hcolumn : row.enrollmentExpiresAt with
  | none =>
    rw [hcolumn] at hexpires
    cases hexpires
  | some expires =>
    rw [hcolumn] at hexpires
    exact ⟨expires, rfl, of_decide_eq_true hexpires⟩

/-- An issued certificate completes the claim of its own key. -/
theorem completeEnrollment_writes {verified : VerifiedCSR} {issuance : CertificateIssuance}
    {actor : String} {certificates certificates' : List AgentCertificate}
    (h : completeEnrollment C rawToken verified issuance actor now certificates s =
      .ok certificates' s') :
    issuance.publicKeySha256 = verified.publicKeySha256 ∧
    ∃ row, agent? s.current verified.agentId = some row ∧
      row.enrollmentTokenHash.getD "" = C.tokenHash rawToken ∧
      row.enrollmentConsumedAt.isSome ∧ row.enrollmentCompletedAt = none ∧
      (row.expectedPublicKeySha256.getD "" = "" ∨
        row.expectedPublicKeySha256.getD "" = verified.publicKeySha256) ∧
      insertCertificate row.name issuance actor now certificates = .ok certificates' ∧
      s'.current.agents = Table.setValue row.name (completeToken now) s.current.agents := by
  unfold completeEnrollment at h
  obtain ⟨⟨⟩, s₁, hissued, h₁⟩ := bind_apply_eq_ok.mp h
  obtain ⟨hsameKey, rfl⟩ := check_eq_ok.mp hissued
  obtain ⟨row, s₂, hlock, h₂⟩ := bind_apply_eq_ok.mp h₁
  obtain ⟨hfound, rfl⟩ := readForUpdate_eq_ok.mp hlock
  obtain ⟨⟨⟩, s₃, hquery, h₃⟩ := bind_apply_eq_ok.mp h₂
  obtain ⟨hcheck, rfl⟩ := query_eq_ok.mp hquery
  obtain ⟨inserted, s₄, hinsert, h₄⟩ := bind_apply_eq_ok.mp h₃
  obtain ⟨hinserted, rfl⟩ := query_eq_ok.mp hinsert
  obtain ⟨⟨⟩, s₅, hset, h₅⟩ := bind_apply_eq_ok.mp h₄
  cases h₅
  unfold checkCompletion at hcheck
  simp only [Transaction.bind_eq_ok, ensure_eq_ok, Bool.or_eq_true, Bool.and_eq_true,
    beq_iff_eq] at hcheck
  obtain ⟨hash, hhash, -, ⟨⟨hsame, hconsumed⟩, hopen⟩, hkey⟩ := hcheck
  rw [tokenHash_eq_ok hhash] at hsame
  exact ⟨eq_of_beq hsameKey, row, lockAgent_agent? hfound, hsame, hconsumed, by simpa using hopen,
    hkey, hinserted, setAgent_eq_ok hset⟩

end Writes

/-! ## Runs -/

/-- The tables, and the raw tokens that were generated with the agent of each. -/
structure World where
  db : Database
  certificates : List AgentCertificate
  issued : String → Option String

def World.session (w : World) : Session := ⟨w.db, w.db⟩

inductive Label where
  /-- A token was generated, with its expiry and the key digest its agent is bound to. -/
  | created (agentId rawToken : String) (expires : DateTime) (bound : Option String)
  | pinned (agentId rawToken key : String) (now : DateTime)
  /-- An enrollment of the key the row holds. -/
  | repeated
  | claimed (rawToken publicKeySha256 : String) (now : DateTime)
  | completed (rawToken publicKeySha256 : String)
  | refused

/-- The accepted requests. A generated token is new. -/
inductive Step : World → Label → World → Prop
  | create {w : World} {agentId actor rawToken token : String} {ttlSeconds : ℤ} {now : DateTime}
      {row : ServerAgent} {s' : Session} (hnew : w.issued rawToken = none)
      (hrow : agent? w.db agentId = some row)
      (h : createEnrollmentToken C agentId actor ttlSeconds rawToken now w.session = .ok token s') :
      Step w (.created agentId rawToken (now.addSeconds ttlSeconds.toNat)
          (orNone row.expectedPublicKeySha256))
        { w with db := s'.current, issued := Function.update w.issued rawToken (some agentId) }
  | enroll {w : World} {agentId rawToken key : String} {now : DateTime} {row : ServerAgent}
      {s' : Session} (hrow : agent? w.db agentId = some row)
      (h : completeSigningKeyEnrollment C rawToken agentId key now w.session = .ok () s') :
      Step w (if row.enrollmentConsumedAt.isSome then .repeated
          else .pinned agentId rawToken key now) { w with db := s'.current }
  | claim {w : World} {rawToken : String} {verified : VerifiedCSR} {now : DateTime} {s' : Session}
      (h : claimEnrollmentToken C rawToken verified now w.session = .ok () s') :
      Step w (.claimed rawToken verified.publicKeySha256 now) { w with db := s'.current }
  | complete {w : World} {rawToken actor : String} {verified : VerifiedCSR}
      {issuance : CertificateIssuance} {now : DateTime} {certificates : List AgentCertificate}
      {s' : Session} (h : completeEnrollment C rawToken verified issuance actor now w.certificates
        w.session = .ok certificates s') :
      Step w (.completed rawToken issuance.publicKeySha256)
        { w with db := s'.current, certificates := certificates }
  /-- A request that raised is rolled back. -/
  | refuse (w : World) : Step w .refused w

/-! ## The life of a token -/

/-- Where the token of that digest stands, by the row of its agent. -/
def rowLife (hash : String) (row : ServerAgent) : Life DateTime String :=
  if row.enrollmentTokenHash = some hash then
    if row.enrollmentConsumedAt.isSome then
      if row.enrollmentCompletedAt.isSome then .spent
      else .claimed (row.expectedPublicKeySha256.getD "")
    else .issued (row.enrollmentExpiresAt.getD ⟨0⟩) (orNone row.expectedPublicKeySha256)
  else .spent

/-- Where a raw token stands. -/
def life (rawToken : String) (w : World) : Life DateTime String :=
  match w.issued rawToken with
  | none => .fresh
  | some agentId =>
    match agent? w.db agentId with
    | none => .spent
    | some row => rowLife (C.tokenHash rawToken) row

/-- What a label means for a raw token. -/
def event (rawToken : String) : Label → Event DateTime String
  | .created _ raw expires bound => if raw = rawToken then .issue expires bound else .other
  | .pinned _ raw _ now => if raw = rawToken then .pin now else .other
  | .claimed raw key now => if raw = rawToken then .claim now key else .other
  | .completed raw key => if raw = rawToken then .certify key else .other
  | .repeated => .other
  | .refused => .other

structure Inv (w : World) : Prop where
  keyed : Keyed w.db.agents
  /-- A row holds the digest of a token that was generated for its agent. -/
  hashes : ∀ row ∈ w.db.agents, ∀ hash, row.enrollmentTokenHash = some hash →
    ∃ rawToken, w.issued rawToken = some row.name ∧ hash = C.tokenHash rawToken
  unused : ∀ row ∈ w.db.agents, row.enrollmentTokenHash.isSome →
    row.enrollmentConsumedAt = none → row.enrollmentCompletedAt = none
  /-- A claim has pinned a key. -/
  claimed : ∀ row ∈ w.db.agents, row.enrollmentTokenHash.isSome →
    row.enrollmentConsumedAt.isSome → row.enrollmentCompletedAt = none →
    row.expectedPublicKeySha256.getD "" ≠ ""

section Lives

variable {C} {w w' : World} {row : ServerAgent} {agentId rawToken : String}

/-- Under the keys, the row of an agent id has that name. -/
theorem agent?_name (hkeyed : Keyed w.db.agents) (hrow : agent? w.db agentId = some row) :
    row ∈ w.db.agents ∧ row.name = agentId := by
  obtain ⟨hmem, hid⟩ := InventoryProjection.agent?_eq_some hrow
  exact ⟨hmem, (hkeyed.agentId row hmem).symm.trans hid⟩

/-- Names and agent ids are not written. -/
structure KeepsNames (f : ServerAgent → ServerAgent) : Prop where
  name : ∀ row, (f row).name = row.name
  agentId : ∀ row, (f row).agentId = row.agentId

/-- A write that keeps names and agent ids keeps the keys. -/
theorem keyed_setValue {agents : List ServerAgent} {f : ServerAgent → ServerAgent}
    (hkeyed : Keyed agents) (hf : KeepsNames f) (name : String) :
    Keyed (Table.setValue name f agents) where
  unique := (Table.unique_update hf.name).mpr hkeyed.unique
  agentId := by
    intro row hrow
    obtain ⟨old, hold, rfl⟩ := (Table.mem_update ..).mp hrow
    split
    · rw [hf.name, hf.agentId]
      exact hkeyed.agentId old hold
    · exact hkeyed.agentId old hold

/-- A new token writes no name. -/
theorem keepsNames_issueToken (actor : String) (ttlSeconds : ℤ) (rawToken : String) (now : DateTime) :
    KeepsNames (issueToken C actor ttlSeconds rawToken now) := ⟨fun _ => rfl, fun _ => rfl⟩

/-- A pinned key writes no name. -/
theorem keepsNames_pinKey (key : String) (now : DateTime) : KeepsNames (pinKey C key now) :=
  ⟨fun _ => rfl, fun _ => rfl⟩

/-- A claim writes no name. -/
theorem keepsNames_claimKey (verified : VerifiedCSR) (now : DateTime) :
    KeepsNames (claimKey verified now) := ⟨fun _ => rfl, fun _ => rfl⟩

/-- A claim keeps the key the row expects, or pins the one that claims. -/
theorem claimKey_key {verified : VerifiedCSR} {now : DateTime} {row : ServerAgent} :
    (claimKey verified now row).expectedPublicKeySha256.getD "" =
      if row.expectedPublicKeySha256.getD "" = "" then verified.publicKeySha256
      else row.expectedPublicKeySha256.getD "" := by
  show (if row.expectedPublicKeySha256.getD "" = "" then some verified.publicKeySha256
    else row.expectedPublicKeySha256).getD "" = _
  by_cases hempty : row.expectedPublicKeySha256.getD "" = ""
  · rw [if_pos hempty, if_pos hempty]
    rfl
  · rw [if_neg hempty, if_neg hempty]

/-- A verified request has a digest as its key. -/
theorem publicKey_ne_empty (verified : VerifiedCSR) : verified.publicKeySha256 ≠ "" := by
  intro hnone
  have hvalid := verified.valid
  rw [hnone] at hvalid
  simp [show isSha256 "" = false by decide] at hvalid

/-- A completion writes no name. -/
theorem keepsNames_completeToken (now : DateTime) : KeepsNames (completeToken now) :=
  ⟨fun _ => rfl, fun _ => rfl⟩

/-- After a write to one row, every row is the written one or an old one. -/
theorem rows_of_write (hinv : Inv C w) {f : ServerAgent → ServerAgent}
    (hrow : agent? w.db agentId = some row)
    (hagents : w'.db.agents = Table.setValue row.name f w.db.agents) {row' : ServerAgent}
    (hrow' : row' ∈ w'.db.agents) : row' = f row ∨ row' ∈ w.db.agents := by
  rw [hagents] at hrow'
  obtain ⟨old, hold, rfl⟩ := (Table.mem_update ..).mp hrow'
  split
  · rename_i hsame
    rw [Table.eq_of_mem hinv.keyed.unique hold (agent?_name hinv.keyed hrow).1 hsame]
    exact .inl rfl
  · exact .inr hold

/-- A write to one row keeps the invariant if it leaves that row as the invariant asks. -/
theorem inv_of_write (hinv : Inv C w) {f : ServerAgent → ServerAgent} (hf : KeepsNames f)
    (hrow : agent? w.db agentId = some row)
    (hagents : w'.db.agents = Table.setValue row.name f w.db.agents)
    (hissued : ∀ raw agentId, w.issued raw = some agentId → w'.issued raw = some agentId)
    (hhashes : ∀ hash, (f row).enrollmentTokenHash = some hash →
      ∃ raw, w'.issued raw = some row.name ∧ hash = C.tokenHash raw)
    (hunused : (f row).enrollmentConsumedAt = none → (f row).enrollmentCompletedAt = none)
    (hclaimed : (f row).enrollmentConsumedAt.isSome → (f row).enrollmentCompletedAt = none →
      (f row).expectedPublicKeySha256.getD "" ≠ "") : Inv C w' := by
  have hrows : ∀ row' ∈ w'.db.agents, row' = f row ∨ row' ∈ w.db.agents :=
    fun row' hrow' => rows_of_write hinv hrow hagents hrow'
  exact {
    keyed := by
      rw [hagents]
      exact keyed_setValue hinv.keyed hf _
    hashes := by
      intro row' hrow' hash hstored
      rcases hrows row' hrow' with rfl | hold
      · rw [hf.name]
        exact hhashes hash hstored
      · obtain ⟨raw, hraw, heq⟩ := hinv.hashes row' hold hash hstored
        exact ⟨raw, hissued raw _ hraw, heq⟩
    unused := by
      intro row' hrow' hstored
      rcases hrows row' hrow' with rfl | hold
      · exact hunused
      · exact hinv.unused row' hold hstored
    claimed := by
      intro row' hrow' hstored
      rcases hrows row' hrow' with rfl | hold
      · exact hclaimed
      · exact hinv.claimed row' hold hstored }

/-- Every accepted request keeps the invariant. -/
theorem step_inv (hinv : Inv C w) {l : Label} (hstep : Step C w l w') :
    Inv C w' := by
  cases hstep with
  | refuse => exact hinv
  | @create agentId actor rawToken token ttlSeconds now row s' hnew hrow h =>
    obtain ⟨row', hrow', hagents⟩ := createEnrollmentToken_writes h
    have hsame := hrow.symm.trans hrow'
    cases hsame
    have hkeeps := keepsNames_issueToken (C := C) actor ttlSeconds rawToken now
    obtain ⟨-, hname⟩ := agent?_name hinv.keyed hrow
    apply inv_of_write hinv hkeeps hrow
    · exact hagents
    · intro raw other hraw
      -- the generated token is new, so every older one keeps its agent
      have hne : raw ≠ rawToken := by
        rintro rfl
        rw [hnew] at hraw
        cases hraw
      show Function.update w.issued rawToken (some agentId) raw = some other
      rw [Function.update_of_ne hne, hraw]
    · rintro hash ⟨⟩
      refine ⟨rawToken, ?_, rfl⟩
      show Function.update w.issued rawToken (some agentId) rawToken = some row.name
      rw [Function.update_self, hname]
    · exact fun _ => rfl
    · exact fun h => by cases h
  | @enroll agentId rawToken key now row s' hrow h =>
    obtain ⟨row', hrow', hstored, -, hwrites⟩ := completeSigningKeyEnrollment_writes h
    have hsame := hrow.symm.trans hrow'
    cases hsame
    -- a repeated enrollment of the pinned key writes nothing
    by_cases hconsumed : row.enrollmentConsumedAt.isSome = true
    · rw [if_pos hconsumed] at hwrites
      rw [hwrites.2]
      exact hinv
    · rw [if_neg hconsumed] at hwrites
      obtain ⟨hmem, -⟩ := agent?_name hinv.keyed hrow
      apply inv_of_write hinv (keepsNames_pinKey key now) hrow
      · exact hwrites
      · exact fun _ _ h => h
      · exact fun hash h => hinv.hashes row hmem hash h
      · exact fun h => by cases h
      · exact fun _ h => by cases h
  | @claim rawToken verified now s' h =>
    obtain ⟨row, hrow, hstored, hunused, -, hkey, hagents⟩ := claimEnrollmentToken_writes h
    obtain ⟨hmem, -⟩ := agent?_name hinv.keyed hrow
    apply inv_of_write hinv (keepsNames_claimKey verified now) hrow
    · exact hagents
    · exact fun _ _ h => h
    · exact fun hash h => hinv.hashes row hmem hash h
    · exact fun h => by cases h
    · intro _ _
      rw [claimKey_key]
      by_cases hempty : row.expectedPublicKeySha256.getD "" = ""
      · rw [if_pos hempty]
        exact publicKey_ne_empty verified
      · rw [if_neg hempty]
        exact hempty
  | @complete rawToken actor verified issuance now certificates s' h =>
    obtain ⟨-, row, hrow, hstored, hconsumed, -, -, -, hagents⟩ := completeEnrollment_writes h
    obtain ⟨hmem, -⟩ := agent?_name hinv.keyed hrow
    apply inv_of_write hinv (keepsNames_completeToken now) hrow
    · exact hagents
    · exact fun _ _ h => h
    · exact fun hash h => hinv.hashes row hmem hash h
    · intro hnone
      have hnone : row.enrollmentConsumedAt = none := hnone
      rw [hnone] at hconsumed
      cases hconsumed
    · exact fun _ h => by cases h

/-! ## The pinned key -/

end Lives

/-! ## Every run -/

/-- Agents without tokens. -/
structure Start (w : World) : Prop where
  keyed : Keyed w.db.agents
  tokens : ∀ row ∈ w.db.agents, row.enrollmentTokenHash = none
  issued : ∀ rawToken, w.issued rawToken = none

section Runs

variable {C} {start w w₁ w₂ : World} {labels : List Label} {agentId rawToken : String}

/-- The invariant holds without tokens. -/
theorem Start.inv (h : Start w) : Inv C w where
  keyed := h.keyed
  hashes := by
    intro row hrow hash hstored
    rw [h.tokens row hrow] at hstored
    cases hstored
  unused := by
    intro row hrow hstored
    rw [h.tokens row hrow] at hstored
    cases hstored
  claimed := by
    intro row hrow hstored
    rw [h.tokens row hrow] at hstored
    cases hstored

/-- The invariant holds after every run. -/
theorem inv_of_run (hinv : Inv C w) (hrun : Run (Step C) w labels w₁) : Inv C w₁ := by
  have hstep : ∀ s l t, Inv C s → Step C s l t → Inv C t := fun _ _ _ hinv hstep =>
    step_inv hinv hstep
  exact hrun.invariant hstep hinv

end Runs

namespace Sample

def firstToken : String := "token-one"

def secondToken : String := "token-two"

def key : String := "3b6a27bcceb6a42d62a3a8d02a6f0d73653215771de243a63ac048a18b59da29"

/-- The digests of the two tokens; any other token keeps its text after a mark. -/
def tokenHash (rawToken : String) : String :=
  if rawToken = firstToken then
    "2c73faa5069f7c52920f38c738a6657b6c7bbe70b9b50317788debf5b5dd4378"
  else if rawToken = secondToken then
    "3495cd1fda6006983399e0ddf8d0ae4dd714777a2c605a72fe8c37828bf67770"
  else String.ofList ('#' :: rawToken.toList)

def crypto : Crypto where
  verify _ _ _ := false
  tokenHash := tokenHash
  keyDigest k := if k = key then
    "139e3940e64b5491722088d9a0d741628fc826e09475d341a780acde3c4b8070" else ""
  publicKey _ := none

/-- The first character of a sample digest tells which token it is of. -/
theorem tokenHash_head (rawToken : String) :
    (tokenHash rawToken).toList.head? = some (if rawToken = firstToken then '2'
      else if rawToken = secondToken then '3' else '#') := by
  unfold tokenHash
  split
  · decide
  · split
    · decide
    · rw [String.toList_ofList]
      rfl

/-- The sample digests differ. -/
theorem hashes : TokenHash crypto where
  injective := by
    intro raw raw' h
    have hhead := congrArg (fun hash => hash.toList.head?) h
    have hhead : (tokenHash raw).toList.head? = (tokenHash raw').toList.head? := hhead
    rw [tokenHash_head, tokenHash_head] at hhead
    by_cases hfirst : raw = firstToken
    · by_cases hfirst' : raw' = firstToken
      · rw [hfirst, hfirst']
      · rw [if_pos hfirst, if_neg hfirst'] at hhead
        split at hhead <;> exact absurd hhead (by decide)
    · by_cases hfirst' : raw' = firstToken
      · rw [if_neg hfirst, if_pos hfirst'] at hhead
        split at hhead <;> exact absurd hhead (by decide)
      · rw [if_neg hfirst, if_neg hfirst'] at hhead
        by_cases hsecond : raw = secondToken
        · by_cases hsecond' : raw' = secondToken
          · rw [hsecond, hsecond']
          · rw [if_pos hsecond, if_neg hsecond'] at hhead
            exact absurd hhead (by decide)
        · by_cases hsecond' : raw' = secondToken
          · rw [if_neg hsecond, if_pos hsecond'] at hhead
            exact absurd hhead (by decide)
          · have hmarked : tokenHash raw = tokenHash raw' := h
            unfold tokenHash at hmarked
            rw [if_neg hfirst, if_neg hsecond, if_neg hfirst', if_neg hsecond'] at hmarked
            have hlist := congrArg String.toList hmarked
            rw [String.toList_ofList, String.toList_ofList] at hlist
            exact String.toList_injective (List.cons.inj hlist).2
  nonempty := by
    intro raw h
    have hhead := tokenHash_head raw
    rw [show tokenHash raw = "" from h] at hhead
    cases hhead

/-- A runtime that reads back the instants it prints. -/
noncomputable def runtime : Runtime where
  sha256 _ := ""
  loads _ := none
  unread _ := .decode
  uuid _ := none
  uuid5 _ _ := ""
  casefold text := text.toLower
  lower text := text.toLower
  fromisoformat text :=
    open Classical in
    if h : ∃ value : DateTime, value.representable = true ∧ ControllerStore.dbTime value = text then
      .aware h.choose
    else .invalid
  floatRepr _ := "0.0"

def now : DateTime := Dispatcher.Sample.now

def start : World := ⟨Dispatcher.Sample.database, [], fun _ => none⟩

/-- The state after a request on the agents. -/
def after {α : Type} (w : World) (m : EStateM Exc Session α) : World :=
  { w with db := (Transaction.committed m w.session).current }

/-- The state after a token was generated. -/
def issue (w : World) (rawToken : String) : World :=
  { after w (createEnrollmentToken crypto "agent-1" "alice@example.com" 600 rawToken now) with
    issued := Function.update w.issued rawToken (some "agent-1") }

def created : World := issue start firstToken

def pinned : World :=
  after created (completeSigningKeyEnrollment crypto firstToken "agent-1" key now)

def replaced : World := issue pinned secondToken

/-- The sample starts without tokens. -/
theorem start_start : Start start where
  keyed := by
    constructor
    · show ([Dispatcher.Sample.agent].map Named.name).Nodup
      simp
    · intro row hrow
      rw [List.mem_singleton.mp hrow]
      rfl
  tokens := by
    intro row hrow
    rw [List.mem_singleton.mp hrow]
    rfl
  issued := fun _ => rfl

end Sample

end Enrollment
end FrappeController
