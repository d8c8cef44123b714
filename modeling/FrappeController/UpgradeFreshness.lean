import FrappeController.AgentRuns

/-!
# The freshness of the heartbeat that completes an upgrade

A deployment confirmation stores the site's local time, a heartbeat stores UTC, and the
verification compares the two. Where the site's clock shows UTC at the confirmations, the
comparison is the order of the two instants.
-/

namespace FrappeController
namespace UpgradeFreshness

open AgentRuns
open AgentUpgrades (Kind Change fresh expectation?)
open ServerAgent (stored)

variable {D : Deployment} {now : DateTime} {view db db' : Database} {request : Request}
variable {row row' : ServerAgent} {labels : List Label} {l : Label} {name : String}

/-! ## What the labels of a run tell -/

/-- The instant of an accepted confirmation of the agent's deployment or rollback. -/
def confirmation? (D : Deployment) (name : String) : Label → Option DateTime
  | .request request now true =>
    if request.kinds.contains .confirm ∧ request.agentId? D = some name then some now else none
  | _ => none

/-- The content of an accepted heartbeat of the agent, and the instant it was received. -/
def heartbeat? (R : Runtime) (name : String) : Label → Option (HeartbeatInventory × DateTime)
  | .request (.heartbeat agentId state) now true =>
    if agentId = name then (Inventory.parseHeartbeatState R state).toOption.map (·, now) else none
  | _ => none

/-- The last of the events that `event?` recognises. -/
def last {α : Type} (event? : Label → Option α) (labels : List Label) : Option α :=
  labels.reverse.findSome? event?

theorem last_snoc {α : Type} (event? : Label → Option α) (labels : List Label) (l : Label) :
    last event? (labels ++ [l]) = (event? l).or (last event? labels) := by
  unfold last
  rw [List.reverse_append, List.reverse_singleton, List.singleton_append, List.findSome?_cons]
  cases event? l <;> rfl

/-- The requests of upgrade runs: no form of the document is saved, and a new agent has not been
seen. -/
def Listed : Label → Prop
  | .request (.create document) _ _ => document.lastSeen = none
  | .request (.saveForm _) _ _ => False
  | _ => True

/-- The site's clock shows UTC at a confirmation. -/
def InUtc (D : Deployment) : Label → Prop
  | .request request now _ => request.kinds.contains .confirm = true → D.zone now = now
  | .other => True

/-! ## What the row of an agent tells -/

/-- A deployment waits for its verification. -/
def Verifying (row : ServerAgent) : Prop :=
  row.upgradeState = .verifying ∨ row.upgradeState = .rollbackVerifying

/-- The row's last heartbeat and confirmation are the last of the run. -/
structure Tracked (D : Deployment) (labels : List Label) (row : ServerAgent) : Prop where
  seen : row.lastSeen = (last (heartbeat? D.runtime row.name) labels).map Prod.snd
  reported : ∀ heartbeat received, last (heartbeat? D.runtime row.name) labels =
    some (heartbeat, received) →
      row.agentVersion = some heartbeat.version ∧ row.reportedStatus = some heartbeat.status
  deployed : Verifying row → ∃ confirmed, last (confirmation? D row.name) labels = some confirmed ∧
    row.upgradeDeployedAt = some (D.zone confirmed)

/-- Labels that are not about the row's heartbeats and confirmations. -/
theorem Tracked.snoc (h : Tracked D labels row) (hheartbeat : heartbeat? D.runtime row.name l = none)
    (hconfirmation : confirmation? D row.name l = none) : Tracked D (labels ++ [l]) row := by
  constructor
  · rw [last_snoc, hheartbeat, Option.none_or]
    exact h.seen
  · rw [last_snoc, hheartbeat, Option.none_or]
    exact h.reported
  · rw [last_snoc, hconfirmation, Option.none_or]
    exact h.deployed

/-- The columns the tracking is about. -/
theorem Tracked.congr (h : Tracked D labels row) (hname : row'.name = row.name)
    (hseen : row'.lastSeen = row.lastSeen) (hversion : row'.agentVersion = row.agentVersion)
    (hstatus : row'.reportedStatus = row.reportedStatus)
    (hstate : Verifying row' → Verifying row ∧ row'.upgradeDeployedAt = row.upgradeDeployedAt) :
    Tracked D labels row' := by
  constructor
  · rw [hname, hseen]
    exact h.seen
  · rw [hname, hversion, hstatus]
    exact h.reported
  · intro hverifying
    obtain ⟨hwas, hdeployed⟩ := hstate hverifying
    rw [hname, hdeployed]
    exact h.deployed hwas

/-! ## Labels and rows -/

theorem contains_confirm_of_optional (h : request.optional = true) :
    request.kinds.contains .confirm = false := by
  cases request with
  | admin user call => cases call <;> first | rfl | cases h
  | route routed action =>
    obtain ⟨agentId, action, observed⟩ := action
    cases action <;> first | rfl | cases h
  | _ => rfl

theorem eq_confirm {kind : Kind} (h : request.kinds.contains .confirm = true)
    (hkind : kind ∈ request.kinds) : kind = .confirm := by
  cases request with
  | admin user call =>
    cases call <;> first | exact List.mem_singleton.mp hkind | cases h
  | route routed action =>
    obtain ⟨agentId, action, observed⟩ := action
    cases action <;> first | exact List.mem_singleton.mp hkind | cases h
  | _ => cases hkind

theorem confirmation?_of_not_contains (h : request.kinds.contains .confirm = false) :
    confirmation? D name (.request request now true) = none :=
  if_neg fun hconfirm => absurd hconfirm.1 (by rw [h]; decide)

theorem confirmation?_of_confirm (h : request.kinds.contains .confirm = true)
    (hname : request.agentId? D = some name) :
    confirmation? D name (.request request now true) = some now :=
  if_pos ⟨h, hname⟩

/-- An upgrade request is no heartbeat. -/
theorem heartbeat?_of_kind {kind : Kind} (hkind : kind ∈ request.kinds) (R : Runtime) :
    heartbeat? R name (.request request now true) = none := by
  cases request with
  | admin => rfl
  | route => rfl
  | _ => cases hkind

/-- A label that is not about the row. -/
theorem labels_of_other (h : ∀ request now, l = .request request now true →
      request.optional = true ∨ request.agentId? D ≠ some name) (R : Runtime) :
    heartbeat? R name l = none ∧ confirmation? D name l = none := by
  cases l with
  | other => exact ⟨rfl, rfl⟩
  | request request now accepted =>
    cases accepted with
    | false =>
      refine ⟨?_, rfl⟩
      cases request <;> rfl
    | true =>
      -- an optional request confirms nothing, and one of another agent is not about this one
      rcases h request now rfl with hoptional | hname
      · refine ⟨?_, confirmation?_of_not_contains (contains_confirm_of_optional hoptional)⟩
        cases request with
        | heartbeat => cases hoptional
        | _ => rfl
      · refine ⟨?_, if_neg fun hconfirm => hname hconfirm.2⟩
        cases request with
        | heartbeat agentId state => exact if_neg fun hagent => hname (congrArg some hagent)
        | _ => rfl

theorem not_verifying_of_stable (h : row.upgradeState.active = false) : ¬ Verifying row := by
  rintro (hstate | hstate) <;> rw [hstate] at h <;> cases h

/-- Only a confirmation makes a document wait for its verification. -/
theorem not_verifying_of_change {zone : DateTime → DateTime} {kind : Kind} {a b : ServerAgent}
    (h : Change zone now kind a b) (hkind : kind ≠ .confirm) : ¬ Verifying b := by
  cases h with
  | confirm => exact absurd rfl hkind
  | observe hstable => exact not_verifying_of_stable hstable
  -- every other change leaves the verifying states
  | @drain a state hdrain hstate =>
    rintro (h | h)
    · rcases hstate with rfl | rfl <;> cases h
    · rcases hstate with rfl | rfl <;> cases h
  | @complete a expected hexpected =>
    refine not_verifying_of_stable ?_
    show expected.completed.active = false
    unfold expectation? at hexpected
    split at hexpected
    · rw [← Option.some.inj hexpected]
      rfl
    · rw [← Option.some.inj hexpected]
      rfl
    · cases hexpected
  | _ => rintro (h | h) <;> cases h

/-- An upgrade change leaves what heartbeats write. -/
theorem seen_of_change {zone : DateTime → DateTime} {kind : Kind} {a b : ServerAgent}
    (h : Change zone now kind a b) : b.lastSeen = a.lastSeen ∧ b.agentVersion = a.agentVersion ∧
      b.reportedStatus = a.reportedStatus := by
  cases h <;> exact ⟨rfl, rfl, rfl⟩

theorem stored_columns (t : DateTime) (a : ServerAgent) :
    (stored t a).name = a.name ∧ (stored t a).lastSeen = a.lastSeen ∧
      (stored t a).agentVersion = a.agentVersion ∧ (stored t a).reportedStatus = a.reportedStatus ∧
      (stored t a).upgradeState = a.upgradeState ∧
      (stored t a).upgradeDeployedAt = a.upgradeDeployedAt := by
  unfold stored
  rw [ServerAgent.normalize_eq]
  exact ⟨rfl, rfl, rfl, rfl, rfl, rfl⟩

/-- What an accepted request does to a row, its label does to the tracking. -/
theorem tracked_of_write (hlisted : Listed (.request request now true))
    (hloaded : ∀ loaded, Table.get? db.agents row.name = some loaded → loaded = row)
    (hwrite : Write D now db request row row') (h : Tracked D labels row) :
    Tracked D (labels ++ [.request request now true]) row' := by
  cases hwrite with
  -- writes that touch none of the tracked columns
  | createToken =>
    exact (h.snoc rfl rfl).congr rfl rfl rfl rfl fun hverifying => ⟨hverifying, rfl⟩
  | enroll => exact (h.snoc rfl rfl).congr rfl rfl rfl rfl fun hverifying => ⟨hverifying, rfl⟩
  | signed => exact (h.snoc rfl rfl).congr rfl rfl rfl rfl fun hverifying => ⟨hverifying, rfl⟩
  | saveForm => exact hlisted.elim
  -- from here on this is the last heartbeat of the agent
  | @heartbeat _ agentId state heartbeat revision hname hparsed =>
    have hlabel : heartbeat? D.runtime row.name (.request (.heartbeat agentId state) now true) =
        some (heartbeat, now) := by
      show (if agentId = row.name then _ else none) = _
      rw [if_pos hname.symm, hparsed]
      rfl
    constructor
    · show some now = _
      rw [last_snoc]
      show some now = ((heartbeat? D.runtime row.name _).or _).map Prod.snd
      rw [hlabel]
      rfl
    · intro reported received hlast
      rw [last_snoc] at hlast
      change (heartbeat? D.runtime row.name _).or _ = _ at hlast
      rw [hlabel] at hlast
      cases hlast
      exact ⟨rfl, rfl⟩
    · rw [last_snoc]
      exact h.deployed
  | @upgrade _ kind _ loaded document hkind hconcerns hfound hchange =>
    rw [hloaded loaded hfound] at hchange
    obtain ⟨hname, hseen, hversion, hstatus, hstate, hdeployed⟩ := stored_columns (D.zone now) document
    obtain ⟨hseen', hversion', hstatus'⟩ := seen_of_change hchange
    have hname' : (stored (D.zone now) document).name = row.name := hname.trans hchange.name
    by_cases hconfirm : kind = .confirm
    · -- the confirmation is the last one from here on
      have hlabel : confirmation? D row.name (.request request now true) = some now := by
        refine confirmation?_of_confirm ?_ hconcerns
        rw [List.contains_iff_mem]
        exact hconfirm ▸ hkind
      have hat : document.upgradeDeployedAt = some (D.zone now) := by
        subst hconfirm
        cases hchange
        rfl
      constructor
      · rw [hname', last_snoc, heartbeat?_of_kind hkind, Option.none_or, hseen, hseen']
        exact h.seen
      · rw [hname', last_snoc, heartbeat?_of_kind hkind, Option.none_or, hversion, hversion',
          hstatus, hstatus']
        exact h.reported
      · intro _
        rw [hname', last_snoc, hlabel, hdeployed]
        exact ⟨now, rfl, hat⟩
    · have hlabel : confirmation? D row.name (.request request now true) = none := by
        refine confirmation?_of_not_contains ?_
        by_contra hcontains
        exact hconfirm (eq_confirm (by simpa using hcontains) hkind)
      refine (h.snoc (heartbeat?_of_kind hkind _) hlabel).congr hname' (hseen.trans hseen')
        (hversion.trans hversion') (hstatus.trans hstatus') fun hverifying => ?_
      unfold Verifying at hverifying
      rw [hstate] at hverifying
      exact absurd hverifying (not_verifying_of_change hchange hconfirm)

/-! ## Runs -/

/-- What holds after a run: every row is tracked, and the agents heard of have rows. -/
structure Inv (D : Deployment) (labels : List Label) (db : Database) : Prop where
  keyed : Keyed db.agents
  tracked : ∀ row ∈ db.agents, Tracked D labels row
  heard : ∀ name, (last (heartbeat? D.runtime name) labels).isSome = true →
    ∃ row ∈ db.agents, row.name = name

theorem names_kept (hstep : Step D db l db') (hkeyed : Keyed db.agents) (hrow : row ∈ db.agents) :
    ∃ row' ∈ db'.agents, row'.name = row.name := by
  rcases hstep.cases hkeyed with ⟨h, -⟩ | ⟨request, now, -, heffect⟩
  · rw [h]
    exact ⟨row, hrow, rfl⟩
  · exact heffect.names_kept hrow

/-- An accepted heartbeat has written a row of its agent. -/
theorem heard_of_step (hstep : Step D db l db') (hkeyed : Keyed db.agents)
    (h : (heartbeat? D.runtime name l).isSome = true) : ∃ row' ∈ db'.agents, row'.name = name := by
  unfold heartbeat? at h
  split at h
  · rename_i agentId state now
    by_cases hagent : agentId = name
    · subst hagent
      rcases hstep.cases hkeyed with ⟨-, hlabel⟩ | ⟨request, now', hlabel, heffect⟩
      · exact absurd rfl (hlabel _ _)
      · cases hlabel
        generalize db'.agents = agents' at heffect
        cases heffect with
        | same hoptional => cases hoptional
        | @write _ written written' hwritten hwrite =>
          refine ⟨written', (Table.mem_update _ _).mpr ⟨written, hwritten, if_pos rfl⟩, ?_⟩
          exact hwrite.name.trans (Option.some.inj hwrite.agentId?).symm
    · rw [if_neg hagent] at h
      cases h
  · cases h

theorem Inv.step (h : Inv D labels db) (hlisted : Listed l) (hstep : Step D db l db') :
    Inv D (labels ++ [l]) db' := by
  constructor
  · exact hstep.keyed h.keyed
  · intro row' hrow'
    -- a row is untouched, written by the request, or new
    rcases hstep.row_cases h.keyed hrow' with ⟨hmem, hother⟩ |
      ⟨request, now, row, rfl, hrow, -, hwrite⟩ |
      ⟨document, now, rfl, hfresh, -, huntouched, rfl⟩
    · obtain ⟨hheartbeat, hconfirmation⟩ := labels_of_other hother D.runtime
      exact (h.tracked row' hmem).snoc hheartbeat hconfirmation
    · exact tracked_of_write hlisted (fun _ => loaded_eq h.keyed hrow) hwrite (h.tracked row hrow)
    · -- nothing was heard of a new agent
      obtain ⟨hname, hseen, -, -, hstate, -⟩ :=
        stored_columns (D.zone now) { document with name := document.agentId }
      have hsilent : last (heartbeat? D.runtime document.agentId) labels = none := by
        by_contra hsome
        obtain ⟨row, hrow, hnamed⟩ := h.heard document.agentId (Option.isSome_iff_ne_none.mpr hsome)
        rw [hname] at hfresh
        exact Table.get?_eq_none.mp hfresh row hrow hnamed
      have hlast : last (heartbeat? D.runtime (stored (D.zone now)
          { document with name := document.agentId }).name)
          (labels ++ [.request (.create document) now true]) = none := by
        rw [hname, last_snoc, hsilent]
        rfl
      constructor
      · rw [hlast, hseen]
        exact hlisted
      · intro heartbeat received hsome
        rw [hlast] at hsome
        cases hsome
      · rintro (hverifying | hverifying)
        · rw [hstate] at hverifying
          simp [ServerAgent.untouched, show document.upgradeState = _ from hverifying] at huntouched
        · rw [hstate] at hverifying
          simp [ServerAgent.untouched, show document.upgradeState = _ from hverifying] at huntouched
  · intro name hsome
    -- an agent was heard of in this step or before it
    rw [last_snoc] at hsome
    cases hlabel : heartbeat? D.runtime name l with
    | some event => exact heard_of_step hstep h.keyed (by rw [hlabel]; rfl)
    | none =>
      rw [hlabel, Option.none_or] at hsome
      obtain ⟨row, hrow, rfl⟩ := h.heard name hsome
      exact names_kept hstep h.keyed hrow

theorem inv_of_run {db₀ : Database} (hstart : db₀.agents = [])
    (hlisted : ∀ l ∈ labels, Listed l) (hrun : Run (Step D) db₀ labels db) : Inv D labels db := by
  induction hrun with
  | nil =>
    refine ⟨hstart ▸ keyed_nil, ?_, ?_⟩
    · intro row hrow
      rw [hstart] at hrow
      cases hrow
    · intro name hsome
      cases hsome
  | snoc _ hlast ih =>
    refine (ih fun l hl => hlisted l (List.mem_append_left _ hl)).step ?_ hlast
    exact hlisted _ (List.mem_append_right _ (List.mem_singleton.mpr rfl))

/-- Where the clock showed UTC, the last confirmation is stored as its instant. -/
theorem zone_of_last (hutc : ∀ l ∈ labels, InUtc D l) {confirmed : DateTime}
    (h : last (confirmation? D name) labels = some confirmed) : D.zone confirmed = confirmed := by
  obtain ⟨l, hl, hevent⟩ := List.exists_of_findSome?_eq_some h
  have hclock := hutc l (List.mem_reverse.mp hl)
  unfold confirmation? at hevent
  split at hevent
  · split at hevent
    · rename_i hconfirm
      cases hevent
      exact hclock hconfirm.1
    · cases hevent
  · cases hevent

/-- The version a row is expected to run once it is in the state `completed`. -/
def expectedVersion (row : ServerAgent) : UpgradeState → Option String
  | .succeeded => row.desiredAgentVersion
  | _ => row.previousAgentVersion

/-- The step completes the upgrade, or the rollback, of the row. -/
def Completes (row row' : ServerAgent) : Prop :=
  row'.upgradeState ≠ row.upgradeState ∧
    (row'.upgradeState = .succeeded ∨ row'.upgradeState = .rolledBack)

variable (D) in
/-- What the freshness comparison is for: an upgrade is completed only with a ready heartbeat of
the expected version that was received since the deployment was confirmed, and such a heartbeat
is not refused as too old, neither by the endpoint nor by the route. -/
structure Fresh (labels : List Label) (db : Database) : Prop where
  completed : ∀ l db', Listed l → Step D db l db' → ∀ row ∈ db.agents, ∀ row' ∈ db'.agents,
    row'.name = row.name → Completes row row' →
    ∃ heartbeat received confirmed,
      last (heartbeat? D.runtime row.name) labels = some (heartbeat, received) ∧
      last (confirmation? D row.name) labels = some confirmed ∧ confirmed ≤ received ∧
      heartbeat.status = .ready ∧
      some heartbeat.version = expectedVersion row' row'.upgradeState ∧
      row'.drainRequested = false
  not_too_old : ∀ row ∈ db.agents, Verifying row → ∀ heartbeat received confirmed,
    last (heartbeat? D.runtime row.name) labels = some (heartbeat, received) →
    last (confirmation? D row.name) labels = some confirmed → confirmed ≤ received →
    fresh row = true

/-- A completing step is a completing change of the row. -/
theorem change_of_completes (hkeyed : Keyed db.agents) (hlisted : Listed l)
    (hstep : Step D db l db') (hrow : row ∈ db.agents) (hrow' : row' ∈ db'.agents)
    (hname : row'.name = row.name) (hcompletes : Completes row row') :
    ∃ now document, Change D.zone now .complete row document ∧
      row' = stored (D.zone now) document := by
  rcases hstep.row_cases hkeyed hrow' with ⟨hmem, -⟩ |
    ⟨request, now, written, rfl, hwritten, hsame, hwrite⟩ | ⟨document, now, -, hfresh, -⟩
  · rw [Table.eq_of_mem hkeyed.unique hmem hrow hname] at hcompletes
    exact absurd rfl hcompletes.1
  · have hwas : written = row :=
      Table.eq_of_mem hkeyed.unique hwritten hrow (hsame.symm.trans hname)
    subst hwas
    cases hwrite with
    | saveForm => exact hlisted.elim
    | @upgrade _ kind _ loaded document hkind hconcerns hfound hchange =>
      rw [loaded_eq hkeyed hrow hfound] at hchange
      obtain ⟨-, -, -, -, hstate, -⟩ := stored_columns (D.zone now) document
      unfold Completes at hcompletes
      rw [hstate] at hcompletes
      refine ⟨now, document, ?_, rfl⟩
      -- no other change leads to a completed state
      cases hchange with
      | complete hexpected hdigest hhealthy => exact .complete hexpected hdigest hhealthy
      | observe => exact absurd rfl hcompletes.1
      | drain _ hdrain =>
        rcases hdrain with rfl | rfl <;> rcases hcompletes.2 with h | h <;> cases h
      | confirm hchoice =>
        unfold AgentUpgrades.deployChoice? at hchoice
        split at hchoice
        · obtain ⟨-, rfl⟩ := Prod.mk.inj (Option.some.inj hchoice)
          rcases hcompletes.2 with h | h <;> cases h
        · obtain ⟨-, rfl⟩ := Prod.mk.inj (Option.some.inj hchoice)
          rcases hcompletes.2 with h | h <;> cases h
        · cases hchoice
      | _ => rcases hcompletes.2 with h | h <;> cases h
    | _ => exact absurd rfl hcompletes.1
  · exact absurd hname.symm (Table.get?_eq_none.mp hfresh row hrow)

theorem completed_of_inv (h : Inv D labels db) (hutc : ∀ l ∈ labels, InUtc D l)
    (hlisted : Listed l) (hstep : Step D db l db') (hrow : row ∈ db.agents)
    (hrow' : row' ∈ db'.agents) (hname : row'.name = row.name) (hcompletes : Completes row row') :
    ∃ heartbeat received confirmed,
      last (heartbeat? D.runtime row.name) labels = some (heartbeat, received) ∧
      last (confirmation? D row.name) labels = some confirmed ∧ confirmed ≤ received ∧
      heartbeat.status = .ready ∧
      some heartbeat.version = expectedVersion row' row'.upgradeState ∧
      row'.drainRequested = false := by
  obtain ⟨now, document, hchange, rfl⟩ :=
    change_of_completes h.keyed hlisted hstep hrow hrow' hname hcompletes
  have htracked := h.tracked row hrow
  cases hchange with
  | @complete _ expected hexpected hdigest hhealthy =>
    -- the deployment is only verified in the two states that wait for it
    have hverifying : Verifying row := by
      unfold expectation? at hexpected
      split at hexpected
      · exact .inl ‹_›
      · exact .inr ‹_›
      · cases hexpected
    obtain ⟨confirmed, hconfirmed, hdeployed⟩ := htracked.deployed hverifying
    unfold AgentUpgrades.healthyPostDeploymentHeartbeat fresh at hhealthy
    simp only [hdeployed, Bool.and_eq_true, beq_iff_eq] at hhealthy
    obtain ⟨⟨⟨-, hready⟩, hversion⟩, hfresh⟩ := hhealthy
    -- without a heartbeat the freshness check fails
    cases hseen : row.lastSeen with
    | none =>
      rw [hseen] at hfresh
      cases hfresh
    | some received =>
      rw [hseen] at hfresh
      have hmap := htracked.seen
      rw [hseen] at hmap
      obtain ⟨⟨heartbeat, _⟩, hlast, rfl⟩ := Option.map_eq_some_iff.mp hmap.symm
      obtain ⟨hreported, hstatus⟩ := htracked.reported heartbeat _ hlast
      refine ⟨heartbeat, _, confirmed, hlast, hconfirmed, ?_, ?_, ?_, ?_⟩
      -- in UTC the stored confirmation compares as the instant it was made
      · rw [zone_of_last hutc hconfirmed] at hfresh
        exact of_decide_eq_true hfresh
      · rw [hstatus] at hready
        exact Option.some.inj hready
      · rw [← hreported, hversion]
        unfold expectation? at hexpected
        split at hexpected
        · rw [← Option.some.inj hexpected]
          unfold stored
          rw [ServerAgent.normalize_eq]
          rfl
        · rw [← Option.some.inj hexpected]
          unfold stored
          rw [ServerAgent.normalize_eq]
          rfl
        · cases hexpected
      · unfold stored
        rw [ServerAgent.normalize_eq]
        rfl

/-- In every site and every run of upgrade requests whose confirmations were made while the site's
clock showed UTC, the freshness comparison does what it is for. -/
theorem upgrade_fresh {db₀ : Database} (hstart : db₀.agents = [])
    (hlisted : ∀ l ∈ labels, Listed l) (hutc : ∀ l ∈ labels, InUtc D l)
    (hrun : Run (Step D) db₀ labels db) : Fresh D labels db := by
  have hinv := inv_of_run hstart hlisted hrun
  constructor
  · intro l db' hl hstep row hrow row' hrow' hname hcompletes
    exact completed_of_inv hinv hutc hl hstep hrow hrow' hname hcompletes
  · intro row hrow hverifying heartbeat received confirmed hheartbeat hconfirmed hle
    have htracked := hinv.tracked row hrow
    obtain ⟨stamp, hstamp, hdeployed⟩ := htracked.deployed hverifying
    have hseen := htracked.seen
    rw [hheartbeat] at hseen
    rw [hconfirmed] at hstamp
    cases hstamp
    unfold fresh
    rw [hdeployed, hseen, zone_of_last hutc hconfirmed]
    exact decide_eq_true hle

namespace Sample

open AgentRuns.Sample

/-- A site ahead of UTC, by ten microseconds. -/
def ahead : Deployment := deployment fun t => ⟨t.micros + 10⟩

/-- A site behind UTC, by as much. -/
def behind : Deployment := deployment fun t => ⟨t.micros - 10⟩

/-- The heartbeat follows the confirmation. -/
def prompt : List (Request × DateTime) :=
  drained ++ [(confirm, ⟨4⟩), (AgentRuns.Sample.heartbeat "2.0.0", ⟨5⟩)]

/-- The only heartbeat of the new version precedes the confirmation. -/
def stale : List (Request × DateTime) :=
  drained ++ [(AgentRuns.Sample.heartbeat "2.0.0", ⟨5⟩), (confirm, ⟨10⟩)]

theorem listed (D : Deployment) {requests : List (Request × DateTime)}
    (h : ∀ p ∈ requests, Listed (.request p.1 p.2 true)) :
    ∀ l ∈ labelsOf D requests start, Listed l := by
  refine forall_labelsOf D (fun p hp accepted => ?_) start
  have hlisted := h p hp
  revert hlisted
  cases p.1 <;> exact id

theorem listed_prompt : ∀ p ∈ prompt, Listed (.request p.1 p.2 true) := by
  simp only [prompt, drained, List.cons_append, List.nil_append, List.forall_mem_cons]
  exact ⟨rfl, trivial, trivial, trivial, trivial, trivial, fun _ hp => absurd hp List.not_mem_nil⟩

theorem listed_stale : ∀ p ∈ stale, Listed (.request p.1 p.2 true) := by
  simp only [stale, drained, List.cons_append, List.nil_append, List.forall_mem_cons]
  exact ⟨rfl, trivial, trivial, trivial, trivial, trivial, fun _ hp => absurd hp List.not_mem_nil⟩

/-- What the prompt requests leave ahead of UTC. -/
theorem played_prompt :
    (last (heartbeat? ahead.runtime "agent-a") (labelsOf ahead prompt start)).map Prod.snd =
        some ⟨5⟩ ∧
      last (confirmation? ahead "agent-a") (labelsOf ahead prompt start) = some ⟨4⟩ ∧
      (play ahead prompt start).agents.any (fun row =>
        row.name == "agent-a" && row.upgradeState == .verifying && !fresh row) = true := by
  decide +kernel

/-- What the stale requests leave behind UTC, and what the verification then does. -/
theorem played_stale :
    (last (heartbeat? behind.runtime "agent-a") (labelsOf behind stale start)).map Prod.snd =
        some ⟨5⟩ ∧
      last (confirmation? behind "agent-a") (labelsOf behind stale start) = some ⟨10⟩ ∧
      (play behind stale start).agents.any (fun row =>
        row.name == "agent-a" && row.upgradeState == .verifying) = true ∧
      (serve behind ⟨11⟩ verify (play behind stale start) (play behind stale start)).2.agents.any
        (fun row => row.name == "agent-a" && row.upgradeState == .succeeded) = true := by
  decide +kernel

/-- Ahead of UTC, the heartbeat that follows the confirmation is refused as too old. -/
theorem not_fresh_ahead :
    ¬ Fresh ahead (labelsOf ahead prompt start) (play ahead prompt start) := by
  intro h
  obtain ⟨hlast, hconfirmed, hany⟩ := played_prompt
  obtain ⟨row, hrow, hcolumns⟩ := List.any_eq_true.mp hany
  simp only [Bool.and_eq_true, beq_iff_eq, Bool.not_eq_true'] at hcolumns
  obtain ⟨⟨hname, hstate⟩, hstale⟩ := hcolumns
  obtain ⟨⟨heartbeat, received⟩, hheartbeat, hreceived⟩ := Option.map_eq_some_iff.mp hlast
  rw [← hname] at hheartbeat hconfirmed
  have hfresh := h.not_too_old row hrow (.inl hstate) heartbeat received ⟨4⟩ hheartbeat hconfirmed
    (by rw [show received = ⟨5⟩ from hreceived]; decide)
  rw [hstale] at hfresh
  cases hfresh

/-- Behind UTC, the upgrade is completed by a heartbeat that precedes the confirmation. -/
theorem not_fresh_behind :
    ¬ Fresh behind (labelsOf behind stale start) (play behind stale start) := by
  intro h
  obtain ⟨hreceived, hlast, hbefore, hafter⟩ := played_stale
  obtain ⟨row, hrow, hcolumns⟩ := List.any_eq_true.mp hbefore
  obtain ⟨row', hrow', hcolumns'⟩ := List.any_eq_true.mp hafter
  simp only [Bool.and_eq_true, beq_iff_eq] at hcolumns hcolumns'
  have hcompletes : Completes row row' := by
    unfold Completes
    rw [hcolumns.2, hcolumns'.2]
    exact ⟨by decide, .inl rfl⟩
  obtain ⟨heartbeat, received, confirmed, hheartbeat, hconfirmed, hle, -⟩ :=
    h.completed _ _ (by trivial) (Step.request verify ⟨11⟩) row hrow row' hrow'
      (hcolumns'.1.trans hcolumns.1.symm) hcompletes
  rw [hcolumns.1] at hheartbeat hconfirmed
  rw [hheartbeat] at hreceived
  have hat := hconfirmed.symm.trans hlast
  cases hreceived
  cases hat
  exact absurd hle (by decide)

end Sample

/-- Both halves of the comparison fail where the site's clock is not UTC. -/
theorem upgrade_not_fresh :
    (∃ labels db, Run (Step Sample.ahead) AgentRuns.Sample.start labels db ∧
      (∀ l ∈ labels, Listed l) ∧ ¬ Fresh Sample.ahead labels db) ∧
    ∃ labels db, Run (Step Sample.behind) AgentRuns.Sample.start labels db ∧
      (∀ l ∈ labels, Listed l) ∧ ¬ Fresh Sample.behind labels db :=
  ⟨⟨_, _, run_play _ _ _, Sample.listed _ Sample.listed_prompt, Sample.not_fresh_ahead⟩,
    _, _, run_play _ _ _, Sample.listed _ Sample.listed_stale, Sample.not_fresh_behind⟩

/-- A whole upgrade of a site in UTC. -/
theorem upgrade_fresh_sample :
    (play (AgentRuns.Sample.deployment id) Sample.prompt AgentRuns.Sample.start).agents.map
      (·.upgradeState) = [.verifying] ∧
    Fresh (AgentRuns.Sample.deployment id)
      (labelsOf (AgentRuns.Sample.deployment id) Sample.prompt AgentRuns.Sample.start)
      (play (AgentRuns.Sample.deployment id) Sample.prompt AgentRuns.Sample.start) :=
  ⟨by decide +kernel, upgrade_fresh rfl (Sample.listed _ Sample.listed_prompt)
    (forall_labelsOf _ (fun _ _ _ _ => rfl) _) (run_play _ _ _)⟩

end UpgradeFreshness

end FrappeController
