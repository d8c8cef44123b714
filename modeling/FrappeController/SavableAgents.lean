import FrappeController.AgentRuns

/-!
# Saving an agent's row as it is

Heartbeats, enrollment and the signature check write columns past `ServerAgent.validate`. What
they write keeps every check but one: a completed upgrade requires the version column to be the
expected version, and a heartbeat may report any other.
-/

namespace FrappeController
namespace SavableAgents

open AgentRuns
open ServerAgent (Sound Savable stored terminalIdentity validateTerminal validateUpgradeState
  validateKeys)

variable {D : Deployment} {now : DateTime} {view db db' : Database} {request : Request}
variable {row row' : ServerAgent} {R : Runtime}

/-! ## What the libraries return -/

/-- Digests and public keys are printed as 64 lower-case hexadecimal digits. -/
structure Hexadecimal (C : Crypto) : Prop where
  tokenHash : ∀ token, isSha256 (C.tokenHash token) = true
  keyDigest : ∀ key, isSha256 (C.keyDigest key) = true
  publicKey : ∀ pem key, C.publicKey pem = some key → isSha256 key = true

/-- The capabilities a heartbeat stores. -/
def reportedCapabilities (heartbeat : HeartbeatInventory) : List String :=
  Inventory.sortTexts (heartbeat.inventory.benches.flatMap (·.capabilities)).dedup

/-- The list of texts a heartbeat stores decodes to that list. -/
def ReadsBack (R : Runtime) : Label → Prop
  | .request (.heartbeat _ state) _ _ =>
    ∀ heartbeat, Inventory.parseHeartbeatState R state = .ok heartbeat →
      R.loads (FrappeInventory.textsText R (reportedCapabilities heartbeat)) =
        some (Inventory.texts (reportedCapabilities heartbeat))
  | _ => True

/-! ## The version column -/

/-- A completed upgrade is reported by the version it was completed with. -/
def ReportsExpected (row : ServerAgent) : Prop :=
  (row.upgradeState = .succeeded → row.agentVersion = row.desiredAgentVersion) ∧
    (row.upgradeState = .rolledBack → row.agentVersion = row.previousAgentVersion)

/-- Some version makes the row sound. -/
def SoundAside (R : Runtime) (row : ServerAgent) : Prop :=
  ∃ version, Sound R { row with agentVersion := version }

theorem soundAside_of_sound (h : Sound R row) : SoundAside R row := ⟨row.agentVersion, h⟩

theorem terminalIdentity_version (version : Option String) :
    terminalIdentity { row with agentVersion := version } = terminalIdentity row := rfl

theorem version_of_terminal (h : ReportsExpected row) {version digest : Option String}
    (hterminal : terminalIdentity row = some (version, digest)) : row.agentVersion = version := by
  unfold terminalIdentity at hterminal
  split at hterminal
  · rename_i hstate
    rw [h.1 hstate]
    exact (Prod.mk.inj (Option.some.inj hterminal)).1
  · rename_i hstate
    rw [h.2 hstate]
    exact (Prod.mk.inj (Option.some.inj hterminal)).1
  · cases hterminal

/-- The version is read by one check only. -/
theorem validateUpgradeState_version {version : Option String}
    (h : validateUpgradeState { row with agentVersion := version } = .ok ())
    (hreports : ReportsExpected row) : validateUpgradeState row = .ok () := by
  unfold validateUpgradeState at h ⊢
  simp only [Transaction.bind_eq_ok] at h ⊢
  obtain ⟨⟨⟩, hactive, ⟨⟩, hverifying, ⟨⟩, hrollback, ⟨⟩, hterminal, hcancelled⟩ := h
  refine ⟨(), hactive, (), hverifying, (), hrollback, (), ?_, hcancelled⟩
  unfold validateTerminal at hterminal ⊢
  rw [terminalIdentity_version] at hterminal
  cases hidentity : terminalIdentity row with
  | none => rfl
  | some identity =>
    obtain ⟨expected, digest⟩ := identity
    have hversion := version_of_terminal hreports hidentity
    rw [hidentity] at hterminal
    simp only [ensure_eq_ok, Bool.and_eq_true, beq_iff_eq] at hterminal ⊢
    exact ⟨⟨hterminal.1.1, hversion⟩, hterminal.2⟩

theorem reportsExpected_of_sound (h : Sound R row) : ReportsExpected row := by
  have hstate := h.state
  unfold validateUpgradeState at hstate
  simp only [Transaction.bind_eq_ok] at hstate
  obtain ⟨⟨⟩, -, ⟨⟩, -, ⟨⟩, -, ⟨⟩, hterminal, -⟩ := hstate
  unfold validateTerminal terminalIdentity at hterminal
  constructor
  · intro hsucceeded
    rw [hsucceeded] at hterminal
    simp only [ensure_eq_ok, Bool.and_eq_true, beq_iff_eq] at hterminal
    exact hterminal.1.2
  · intro hrolled
    rw [hrolled] at hterminal
    simp only [ensure_eq_ok, Bool.and_eq_true, beq_iff_eq] at hterminal
    exact hterminal.1.2

theorem sound_iff (h : SoundAside R row) : Sound R row ↔ ReportsExpected row := by
  constructor
  · exact reportsExpected_of_sound
  · intro hreports
    obtain ⟨version, hsound⟩ := h
    exact ⟨hsound.identity, hsound.capabilities, hsound.policy, hsound.keys, hsound.texts,
      validateUpgradeState_version hsound.state hreports⟩

/-! ## The direct writes -/

theorem validateKeys_eq_ok {a : ServerAgent} :
    validateKeys a = .ok () ↔
      ServerAgent.checkDigest a.enrollmentTokenHash "enrollment_token_hash" = .ok () ∧
      ServerAgent.checkDigest a.expectedPublicKeySha256 "expected_public_key_sha256" = .ok () ∧
      ServerAgent.checkDigest a.signingPublicKeyEd25519 "signing_public_key_ed25519" = .ok () ∧
      ServerAgent.checkText ServerAgent.isSequence
        (.validation "last_signed_request_at_ns is invalid") a.lastSignedRequestAtNs = .ok () := by
  simp only [validateKeys, Transaction.bind_eq_ok]
  constructor
  · rintro ⟨⟨⟩, htoken, ⟨⟩, hexpected, ⟨⟩, hkey, hsequence⟩
    exact ⟨htoken, hexpected, hkey, hsequence⟩
  · rintro ⟨htoken, hexpected, hkey, hsequence⟩
    exact ⟨(), htoken, (), hexpected, (), hkey, hsequence⟩

theorem checkText_some {valid : String → Bool} {e : Exc} {text : String} (h : valid text = true) :
    ServerAgent.checkText valid e (some text) = .ok () := by
  unfold ServerAgent.checkText
  rw [ensure_eq_ok, Option.map_some, Option.getD_some, h, Bool.or_true]

theorem checkText_none {valid : String → Bool} {e : Exc} :
    ServerAgent.checkText valid e none = .ok () := rfl

theorem textsText_ne_nil (names : List String) : FrappeInventory.textsText R names ≠ [] := by
  intro h
  cases h

theorem requireJsonList_texts {names : List String} {field : String}
    (h : R.loads (FrappeInventory.textsText R names) = some (Inventory.texts names)) :
    (requireJsonList R (some (FrappeInventory.textsText R names)) field).isOk = true := by
  unfold requireJsonList
  rw [Option.filter_some, if_pos (by simpa using textsText_ne_nil names), Option.getD_some, h]
  rfl

/-- Every accepted request keeps the row sound, but for the version a heartbeat reports. -/
theorem soundAside_of_write (hhex : Hexadecimal D.crypto)
    (hread : ReadsBack D.runtime (.request request now true))
    (hwrite : Write D now view request row row') (h : SoundAside D.runtime row) :
    SoundAside D.runtime row' := by
  obtain ⟨version, hsound⟩ := h
  obtain ⟨htoken, hexpected, hkey, hsequence⟩ := validateKeys_eq_ok.mp hsound.keys
  cases hwrite with
  -- each write sets columns that it made valid, and leaves the rest
  | createToken =>
    refine ⟨version, hsound.identity, hsound.capabilities, hsound.policy, ?_, hsound.texts,
      hsound.state⟩
    exact validateKeys_eq_ok.mpr ⟨checkText_some (hhex.tokenHash _), hexpected, hkey, hsequence⟩
  | enroll _ _ hpublic =>
    refine ⟨version, hsound.identity, hsound.capabilities, hsound.policy, ?_, hsound.texts,
      hsound.state⟩
    exact validateKeys_eq_ok.mpr ⟨htoken, checkText_some (hhex.keyDigest _),
      checkText_some (hhex.publicKey _ _ hpublic), checkText_none⟩
  | signed _ hnumber =>
    refine ⟨version, hsound.identity, hsound.capabilities, hsound.policy, ?_, hsound.texts,
      hsound.state⟩
    exact validateKeys_eq_ok.mpr ⟨htoken, hexpected, hkey, checkText_some hnumber⟩
  | heartbeat _ hparsed =>
    exact ⟨version, hsound.identity, requireJsonList_texts (hread _ hparsed), hsound.policy,
      hsound.keys, hsound.texts, hsound.state⟩
  | saveForm _ _ hdocument =>
    exact soundAside_of_sound (ServerAgent.sound_stored.mpr hdocument)
  | upgrade _ _ _ _ _ hdocument =>
    exact soundAside_of_sound (ServerAgent.sound_stored.mpr hdocument)

theorem Step.soundAside {l : Label} (hhex : Hexadecimal D.crypto) (hread : ReadsBack D.runtime l)
    (hstep : Step D db l db') (hkeyed : Keyed db.agents)
    (h : ∀ row ∈ db.agents, SoundAside D.runtime row) :
    ∀ row ∈ db'.agents, SoundAside D.runtime row := by
  refine hstep.rows hkeyed h ?_ ?_
  · intro now document hsound _
    exact soundAside_of_sound (ServerAgent.sound_stored.mpr hsound)
  · rintro request now row row' rfl _ hwrite hrow
    exact soundAside_of_write hhex hread hwrite hrow

/-! ## Runs -/

/-- A heartbeat accepted from an agent whose upgrade is complete reports the version of it. -/
def Steady (R : Runtime) (db : Database) : Label → Prop
  | .request (.heartbeat agentId state) _ true =>
    ∀ row ∈ db.agents, row.agentId = agentId →
      ∀ heartbeat, Inventory.parseHeartbeatState R state = .ok heartbeat →
        ReportsExpected { row with agentVersion := some heartbeat.version }
  | _ => True

theorem Step.reportsExpected {l : Label} (hsteady : Steady D.runtime db l)
    (hstep : Step D db l db') (hkeyed : Keyed db.agents)
    (h : ∀ row ∈ db.agents, ReportsExpected row) : ∀ row ∈ db'.agents, ReportsExpected row := by
  refine hstep.rows hkeyed h ?_ ?_
  · intro now document hsound _
    exact reportsExpected_of_sound (ServerAgent.sound_stored.mpr hsound)
  · rintro request now row row' rfl hrow hwrite hreports
    cases hwrite with
    | heartbeat hname hparsed =>
      exact hsteady row hrow ((hkeyed.agentId row hrow).trans hname) _ hparsed
    | saveForm _ _ hdocument =>
      exact reportsExpected_of_sound (ServerAgent.sound_stored.mpr hdocument)
    | upgrade _ _ _ _ _ hdocument =>
      exact reportsExpected_of_sound (ServerAgent.sound_stored.mpr hdocument)
    | _ => exact hreports

/-- A reachable row can be saved as it is exactly when a completed upgrade of it is still reported
by its version; and in a run whose heartbeats are steady, every row can. -/
theorem rows_savable (hhex : Hexadecimal D.crypto) {db₀ : Database} {labels : List Label}
    (hstart : db₀.agents = []) (hread : ∀ l ∈ labels, ReadsBack D.runtime l)
    (hrun : Run (Step D) db₀ labels db) :
    (∀ row ∈ db.agents, Savable D.runtime row ↔ ReportsExpected row) ∧
    (Run (fun s l t => Step D s l t ∧ Steady D.runtime s l) db₀ labels db →
      ∀ row ∈ db.agents, Savable D.runtime row) := by
  have hempty : ∀ P : ServerAgent → Prop, ∀ row ∈ db₀.agents, P row := by
    intro P row hrow
    rw [hstart] at hrow
    cases hrow
  have hkeyed₀ : Keyed db₀.agents := hstart ▸ keyed_nil
  -- what `Sound` asks apart from the version is kept by every step
  have hsound : Keyed db.agents ∧ ∀ row ∈ db.agents, SoundAside D.runtime row := by
    refine (hrun.restrict hread).invariant
      (I := fun db => Keyed db.agents ∧ ∀ row ∈ db.agents, SoundAside D.runtime row) ?_
      ⟨hkeyed₀, hempty _⟩
    intro s l t hs hstep
    exact ⟨hstep.1.keyed hs.1, Step.soundAside hhex hstep.2 hstep.1 hs.1 hs.2⟩
  have hiff : ∀ row ∈ db.agents, Savable D.runtime row ↔ ReportsExpected row := fun row hrow =>
    ServerAgent.savable_iff.trans (sound_iff (hsound.2 row hrow))
  refine ⟨hiff, fun hsteady row hrow => (hiff row hrow).mpr ?_⟩
  -- the reported version is kept by the steady ones
  have hreports : Keyed db.agents ∧ ∀ row ∈ db.agents, ReportsExpected row := by
    refine hsteady.invariant
      (I := fun db => Keyed db.agents ∧ ∀ row ∈ db.agents, ReportsExpected row) ?_
      ⟨hkeyed₀, hempty _⟩
    intro s l t hs hstep
    exact ⟨hstep.1.keyed hs.1, Step.reportsExpected hstep.2 hstep.1 hs.1 hs.2⟩
  exact hreports.2 row hrow

/-- After a completed upgrade, a heartbeat of another version leaves a row that cannot be saved as
it is. -/
theorem row_unsavable : ∃ labels db row,
    Run (Step (Sample.deployment id)) Sample.start labels db ∧ row ∈ db.agents ∧
      ¬ Savable Sample.runtime row := by
  have hany : (play (Sample.deployment id)
      (Sample.upgraded ++ [(Sample.heartbeat "2.0.1", ⟨7⟩)]) Sample.start).agents.any
        (fun row => !(ServerAgent.validate Sample.runtime (some row) false row).isOk) = true := by
    decide +kernel
  obtain ⟨row, hrow, hrefused⟩ := List.any_eq_true.mp hany
  refine ⟨_, _, row, run_play _ _ _, hrow, fun hsavable => ?_⟩
  rw [show _ = true from hsavable] at hrefused
  cases hrefused

namespace Sample

open AgentRuns.Sample

theorem isSha256_zeros : isSha256 zeros = true := by decide

theorem hexadecimal : Hexadecimal (deployment id).crypto where
  tokenHash _ := isSha256_zeros
  keyDigest _ := isSha256_zeros
  publicKey _ key hkey := by
    cases hkey
    exact isSha256_zeros

instance (row : ServerAgent) : Decidable (ReportsExpected row) :=
  inferInstanceAs (Decidable (_ ∧ _))

/-- `Steady` of a request, accepted or not. -/
def isSteady (db : Database) : Request → Bool
  | .heartbeat agentId state =>
    match Inventory.parseHeartbeatState runtime state with
    | .error _ => true
    | .ok parsed => db.agents.all fun row => row.agentId != agentId ||
        decide (ReportsExpected { row with agentVersion := some parsed.version })
  | _ => true

theorem steady_of_isSteady {db : Database} {request : Request} (h : isSteady db request = true)
    (now : DateTime) (accepted : Bool) :
    Steady runtime db (.request request now accepted) := by
  cases request with
  | heartbeat agentId state =>
    cases accepted with
    | false => trivial
    | true =>
      intro row hrow hagent parsed hparsed
      unfold isSteady at h
      dsimp only at h
      rw [hparsed] at h
      have hchecked := List.all_eq_true.mp h row hrow
      rw [Bool.or_eq_true, decide_eq_true_eq] at hchecked
      exact hchecked.resolve_left (by simp [hagent])
  | _ => trivial

/-- Every request of the list is steady where it is served. -/
def allSteady : List (Request × DateTime) → Database → Bool
  | [], _ => true
  | (request, now) :: rest, db =>
    isSteady db request && allSteady rest (serve (deployment id) now request db db).2

theorem run_steady (requests : List (Request × DateTime)) (db : Database)
    (h : allSteady requests db = true) :
    Run (fun s l t => Step (deployment id) s l t ∧ Steady (deployment id).runtime s l) db
      (labelsOf (deployment id) requests db) (play (deployment id) requests db) := by
  induction requests generalizing db with
  | nil => exact .nil db
  | cons head rest ih =>
    obtain ⟨hhead, hrest⟩ := Bool.and_eq_true_iff.mp h
    exact (Run.single ⟨Step.request head.1 head.2, steady_of_isSteady hhead _ _⟩).append
      (ih _ hrest)

/-- A whole upgrade, and a heartbeat of the version it was for. -/
def settled : List (Request × DateTime) := upgraded ++ [(heartbeat "2.0.0", ⟨7⟩)]

/-- A heartbeat without capabilities reads back. -/
theorem readsBack_heartbeat (version : String) (now : DateTime) (accepted : Bool)
    (h : ((Inventory.parseHeartbeatState runtime
      (.obj [("status", .str "ready"), ("version", .str version), ("inventory_digest", .str zeros),
        ("inventory", Inventory.snapshotJson inventory)])).toOption.map reportedCapabilities) =
        some []) :
    ReadsBack runtime (.request (heartbeat version) now accepted) := by
  intro parsed hparsed
  rw [hparsed] at h
  rw [show reportedCapabilities parsed = [] from Option.some.inj h]
  rfl

theorem readsBack : ∀ l ∈ labelsOf (deployment id) settled start,
    ReadsBack (deployment id).runtime l := by
  refine forall_labelsOf _ ?_ _
  have hfirst := fun now accepted => readsBack_heartbeat "1.0.0" now accepted (by decide +kernel)
  have hsecond := fun now accepted => readsBack_heartbeat "2.0.0" now accepted (by decide +kernel)
  simp only [settled, upgraded, drained, List.cons_append, List.nil_append, List.forall_mem_cons]
  refine ⟨fun _ => trivial, hfirst _, fun _ => trivial, fun _ => trivial, fun _ => trivial,
    hsecond _, fun _ => trivial, hsecond _, fun p hp => ?_⟩
  cases hp

end Sample

/-- An agent that has been upgraded to version 2.0.0, and reports that version. -/
theorem rows_savable_sample :
    (play (AgentRuns.Sample.deployment id) Sample.settled AgentRuns.Sample.start).agents.map
      (fun row => (row.upgradeState, row.agentVersion)) = [(.succeeded, some "2.0.0")] ∧
    ∀ row ∈ (play (AgentRuns.Sample.deployment id) Sample.settled
      AgentRuns.Sample.start).agents, Savable (AgentRuns.Sample.deployment id).runtime row :=
  ⟨by decide +kernel, (rows_savable (D := AgentRuns.Sample.deployment id) Sample.hexadecimal rfl
    Sample.readsBack (run_play _ Sample.settled AgentRuns.Sample.start)).2
      (Sample.run_steady _ _ (by decide +kernel))⟩

end SavableAgents

end FrappeController
