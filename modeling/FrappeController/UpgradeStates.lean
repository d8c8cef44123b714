import FrappeController.AgentRuns
import FrappeController.FrappeStore

/-!
# The upgrade state machine of an agent

Two drivers move the machine, and two tables know about it: the transition table of the
document, and the flag `drain_requested` that leasing consults. Here they agree: no driver is
refused by the table after its own guard, the flag is set exactly while an upgrade is active,
and nothing is leased meanwhile.
-/

namespace FrappeController
namespace UpgradeStates

open AgentRuns
open ServerAgent (Sound Permitted stored terminalIdentity validateUpgradeState)
open AgentUpgrades (Kind Change RouteRequest)

variable {D : Deployment} {now : DateTime} {view db db' : Database} {request : Request}
variable {row row' : ServerAgent}

/-! ## One step of the machine -/

/-- Between two versions of a row. A completed upgrade was entered with the expected image
observed and the expected version reported. -/
structure Moves (row row' : ServerAgent) : Prop where
  permitted : row'.upgradeState = row.upgradeState ∨
    row'.upgradeState ∈ row.upgradeState.transitions
  succeeded : row'.upgradeState = .succeeded → row.upgradeState ≠ .succeeded →
    row'.observedImageDigest = row'.desiredImageDigest ∧
      row'.agentVersion = row'.desiredAgentVersion
  rolledBack : row'.upgradeState = .rolledBack → row.upgradeState ≠ .rolledBack →
    row'.observedImageDigest = row'.previousImageDigest ∧
      row'.agentVersion = row'.previousAgentVersion

theorem Moves.of_eq (h : row'.upgradeState = row.upgradeState) : Moves row row' :=
  ⟨.inl h, fun hs hne => absurd (h.symm.trans hs) hne, fun hs hne => absurd (h.symm.trans hs) hne⟩

theorem stored_upgradeState (t : DateTime) (a : ServerAgent) :
    (stored t a).upgradeState = a.upgradeState := by
  unfold stored
  rw [ServerAgent.normalize_eq]

theorem stored_drainRequested (t : DateTime) (a : ServerAgent) :
    (stored t a).drainRequested = a.drainRequested := by
  unfold stored
  rw [ServerAgent.normalize_eq]

/-- A sound row of a completed upgrade has the identity the upgrade expected. -/
theorem terminal_of_sound {R : Runtime} (h : Sound R row) {version digest : Option String}
    (hterminal : terminalIdentity row = some (version, digest)) :
    row.drainRequested = false ∧ row.agentVersion = version ∧ row.observedImageDigest = digest := by
  have hstate := h.state
  unfold validateUpgradeState at hstate
  simp only [Transaction.bind_eq_ok] at hstate
  obtain ⟨⟨⟩, -, ⟨⟩, -, ⟨⟩, -, ⟨⟩, hcheck, -⟩ := hstate
  unfold ServerAgent.validateTerminal at hcheck
  rw [hterminal] at hcheck
  simp only [ensure_eq_ok, Bool.and_eq_true, Bool.not_eq_true', beq_iff_eq] at hcheck
  exact ⟨hcheck.1.1.1, hcheck.1.2, hcheck.2⟩

theorem Moves.of_sound {R : Runtime} (hsound : Sound R row')
    (hpermitted : row.upgradeState = row'.upgradeState ∨
      row'.upgradeState ∈ row.upgradeState.transitions) : Moves row row' := by
  refine ⟨hpermitted.imp_left Eq.symm, fun hs _ => ?_, fun hs _ => ?_⟩
  · have hterminal : terminalIdentity row' =
        some (row'.desiredAgentVersion, row'.desiredImageDigest) := by
      unfold terminalIdentity
      rw [hs]
    obtain ⟨-, hversion, hdigest⟩ := terminal_of_sound hsound hterminal
    exact ⟨hdigest, hversion⟩
  · have hterminal : terminalIdentity row' =
        some (row'.previousAgentVersion, row'.previousImageDigest) := by
      unfold terminalIdentity
      rw [hs]
    obtain ⟨-, hversion, hdigest⟩ := terminal_of_sound hsound hterminal
    exact ⟨hdigest, hversion⟩

/-- Whatever its plain reads saw, an accepted request makes a move of the table. -/
theorem moves_of_write (h : Write D now view request row row') : Moves row row' := by
  cases h with
  | saveForm _ _ hsound hpermitted =>
    refine .of_sound (ServerAgent.sound_stored.mpr hsound) ?_
    rw [stored_upgradeState]
    exact hpermitted.transition
  | upgrade _ _ _ _ _ hsound hpermitted =>
    refine .of_sound (ServerAgent.sound_stored.mpr hsound) ?_
    rw [stored_upgradeState]
    exact hpermitted.transition
  | _ => exact .of_eq rfl

theorem moves_of_step {l : Label} (hstep : Step D db l db') (hkeyed : Keyed db.agents)
    (hrow : row ∈ db.agents) (hrow' : row' ∈ db'.agents) (hname : row'.name = row.name) :
    Moves row row' := by
  rcases hstep.row_cases hkeyed hrow' with ⟨hmem, -⟩ |
    ⟨request, now, written, -, hwritten, hsame, hwrite⟩ | ⟨document, now, -, hfresh, -⟩
  · -- a row that is still there is the row itself
    rw [Table.eq_of_mem hkeyed.unique hmem hrow hname]
    exact .of_eq rfl
  · have hwas : written = row :=
      Table.eq_of_mem hkeyed.unique hwritten hrow (hsame.symm.trans hname)
    rw [← hwas]
    exact moves_of_write hwrite
  · -- a new document has a name no row had
    exact absurd hname.symm (Table.get?_eq_none.mp hfresh row hrow)

/-! ## The drain flag -/

/-- The flag is set exactly while an upgrade is active. -/
def Lockstep (row : ServerAgent) : Prop := row.upgradeState.active = row.drainRequested

theorem active_of_undeployed {state : UpgradeState} (h : AgentUpgrades.undeployed state = true) :
    state.active = true := by
  revert h
  cases state <;> decide

theorem lockstep_of_change {zone : DateTime → DateTime} {kind : Kind} {a b : ServerAgent}
    (h : Change zone now kind a b) (ha : Lockstep a) : Lockstep b := by
  unfold Lockstep at ha
  cases h with
  | plan => rfl
  | @drain a state hdrain hstate hne =>
    show state.active = a.drainRequested
    rw [← ha, active_of_undeployed hdrain]
    rcases hstate with rfl | rfl <;> rfl
  | observe => exact ha
  | @confirm a observed state hchoice =>
    show state.active = a.drainRequested
    rw [← ha]
    unfold AgentUpgrades.deployChoice? at hchoice
    split at hchoice
    · rename_i hready
      rw [hready, ← (Prod.mk.inj (Option.some.inj hchoice)).2]
      rfl
    · rename_i hrollback
      rw [hrollback, ← (Prod.mk.inj (Option.some.inj hchoice)).2]
      rfl
    · cases hchoice
  | fail hstate =>
    show UpgradeState.rollbackRequired.active = a.drainRequested
    rw [← ha]
    rcases hstate with hstate | hstate <;> rw [hstate] <;> rfl
  | cancel => rfl
  | @complete a expected hexpected =>
    show expected.completed.active = false
    unfold AgentUpgrades.expectation? at hexpected
    split at hexpected
    · rw [← Option.some.inj hexpected]
      rfl
    · rw [← Option.some.inj hexpected]
      rfl
    · cases hexpected

theorem lockstep_stored {t : DateTime} {a : ServerAgent} (h : Lockstep a) :
    Lockstep (stored t a) := by
  unfold Lockstep
  rw [stored_upgradeState, stored_drainRequested]
  exact h

theorem lockstep_of_untouched {a : ServerAgent} (h : ServerAgent.untouched a = true) :
    Lockstep a := by
  unfold ServerAgent.untouched at h
  simp only [Bool.and_eq_true, beq_iff_eq, Bool.not_eq_true'] at h
  have hstate : a.upgradeState = .none := by tauto
  have hdrain : a.drainRequested = false := by tauto
  unfold Lockstep
  rw [hstate, hdrain]
  rfl

theorem Step.lockstep {l : Label} (hstep : Step D db l db') (hkeyed : Keyed db.agents)
    (h : ∀ row ∈ db.agents, Lockstep row) : ∀ row ∈ db'.agents, Lockstep row := by
  refine hstep.rows hkeyed h ?_ ?_
  · intro now document _ huntouched
    exact lockstep_stored (lockstep_of_untouched huntouched)
  · intro request now row row' _ hrow hwrite hlock
    cases hwrite with
    | @saveForm _ document _ _ _ hpermitted =>
      -- without the flag of the service, the upgrade columns are as they were
      have hfields := hpermitted.fields.resolve_right (by decide)
      have hstate : row.upgradeState = document.upgradeState :=
        congrArg ServerAgent.UpgradeFields.upgradeState hfields
      have hdrain : row.drainRequested = document.drainRequested :=
        congrArg ServerAgent.UpgradeFields.drainRequested hfields
      refine lockstep_stored ?_
      show document.upgradeState.active = document.drainRequested
      rw [← hstate, ← hdrain]
      exact hlock
    | upgrade _ _ hloaded hchange =>
      rw [loaded_eq hkeyed hrow hloaded] at hchange
      exact lockstep_stored (lockstep_of_change hchange hlock)
    | _ => exact hlock

/-! ## Leases -/

/-- A draining agent has no candidate in the queue. -/
theorem leasable_draining {agentId : String}
    (hdrain : ∀ a ∈ db.agents, a.agentId = agentId → a.drainRequested = true)
    (allowed : Option (List String)) (locked : List String) (now : DateTime) :
    FrappeStore.leasable db agentId allowed locked now = [] := by
  have hnone : ∀ op, FrappeStore.candidate? db agentId allowed locked now op = none := by
    intro op
    unfold FrappeStore.candidate?
    cases hagent : Table.get? db.agents op.serverAgent with
    | none => rfl
    | some agent =>
      by_cases hid : agent.agentId = agentId
      · have hflag := hdrain agent (Table.get?_mem hagent) hid
        simp [hflag]
      · simp [hid]
  unfold FrappeStore.leasable
  rw [List.filterMap_eq_nil_iff.mpr fun op _ => hnone op]
  rfl

theorem leaseCommand_draining {R : Runtime} {lifetime clockSkew : ℕ} {agentId : String}
    (hdrain : ∀ a ∈ db.agents, a.agentId = agentId → a.drainRequested = true)
    (now : DateTime) (allowed : Option (List String)) (commandFilter : FrappeStore.Candidate → Bool)
    (locked : List String) :
    FrappeStore.leaseCommand R lifetime clockSkew agentId now allowed commandFilter locked db =
      .ok none db := by
  unfold FrappeStore.leaseCommand
  by_cases hempty : allowed = some []
  · rw [if_pos hempty]
    rfl
  · rw [if_neg hempty, Transaction.bind_apply, Transaction.get_apply]
    simp only [leasable_draining hdrain]
    rfl

/-! ## Runs -/

variable (D) in
/-- What holds of the machine in a state: the flag agrees with it, nothing is leased to an agent
that is being upgraded, every step makes moves of the table, and the table never refuses a
driver. -/
structure Machine (db : Database) : Prop where
  active_iff : ∀ row ∈ db.agents, row.upgradeState.active = true ↔ row.drainRequested = true
  no_lease : ∀ row ∈ db.agents, row.upgradeState.active = true →
    ∀ lifetime clockSkew now allowed commandFilter locked,
      FrappeStore.leaseCommand D.runtime lifetime clockSkew row.agentId now allowed commandFilter
        locked db = .ok none db
  moves : ∀ l db', Step D db l db' → ∀ row ∈ db.agents, ∀ row' ∈ db'.agents,
    row'.name = row.name → Moves row row'
  admin_not_refused : ∀ user call now e,
    (serve D now (.admin user call) db db).1 = .error e → e.refusedByTable = false
  route_not_refused : ∀ routed action now e,
    (serve D now (.route routed action) db db).1 = .error e → e.refusedByTable = false

/-- A transaction that satisfies an upgrade specification is not refused by the table. -/
theorem serve_not_refused {kinds : List Kind} {who : String → Prop} {α : Type}
    {m : EStateM Exc FrappeInventory.Session α} {e : Exc}
    (hrun : request.run D now = m >>= fun _ => pure ())
    (hspec : AgentUpgrades.Spec D.runtime D.zone now kinds who { view := db, current := db } m)
    (h : (serve D now request db db).1 = .error e) : e.refusedByTable = false := by
  unfold serve at h
  rw [hrun] at h
  have htriple := hspec.andThen fun _ => ()
  cases hresult : (m >>= fun _ => pure ()) { view := db, current := db } with
  | ok u session =>
    rw [hresult] at h
    cases h
  | error e' session =>
    rw [hresult] at h
    cases h
    exact Transaction.Triple.error htriple rfl hresult rfl

theorem machine_of_lockstep (hkeyed : Keyed db.agents) (h : ∀ row ∈ db.agents, Lockstep row) :
    Machine D db where
  active_iff row hrow := by rw [h row hrow]
  no_lease row hrow hactive lifetime clockSkew now allowed commandFilter locked := by
    refine leaseCommand_draining ?_ now allowed commandFilter locked
    intro other hother hid
    have hname : other.name = row.name := by
      rw [← hkeyed.agentId other hother, hid, hkeyed.agentId row hrow]
    rw [Table.eq_of_mem hkeyed.unique hother hrow hname, ← h row hrow]
    exact hactive
  moves l db' hstep row hrow row' hrow' hname := moves_of_step hstep hkeyed hrow hrow' hname
  admin_not_refused user call now e he := serve_not_refused rfl (AdminCall.spec user call) he
  route_not_refused routed action now e he := serve_not_refused rfl (route_spec routed action) he

/-- In every state that agents created in the run reach, by any sequence of requests, the upgrade
machine is as its table says and in lockstep with the drain flag. -/
theorem upgrade_machine {db₀ : Database} {labels : List Label} (hstart : db₀.agents = [])
    (hrun : Run (Step D) db₀ labels db) : Machine D db := by
  have hinv : Keyed db.agents ∧ ∀ row ∈ db.agents, Lockstep row := by
    refine hrun.invariant (I := fun db => Keyed db.agents ∧ ∀ row ∈ db.agents, Lockstep row) ?_ ?_
    · intro s l t hs hstep
      exact ⟨hstep.keyed hs.1, Step.lockstep hstep hs.1 hs.2⟩
    · rw [hstart]
      exact ⟨keyed_nil, fun row hrow => absurd hrow List.not_mem_nil⟩
  exact machine_of_lockstep hinv.1 hinv.2

/-- The machine after a whole upgrade. -/
theorem upgrade_machine_sample :
    (play (Sample.deployment id) Sample.upgraded Sample.start).agents.map (·.upgradeState) =
      [.succeeded] ∧
    Machine (Sample.deployment id) (play (Sample.deployment id) Sample.upgraded Sample.start) :=
  ⟨by decide +kernel, upgrade_machine rfl (run_play _ _ _)⟩

end UpgradeStates

end FrappeController
