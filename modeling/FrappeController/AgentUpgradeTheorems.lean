import FrappeController.AgentUpgrades
import FrappeController.ServerAgentTheorems

/-!
# What the two upgrade drivers do to an agent's document

Every endpoint and every route action either leaves the tables alone or saves one `Change` of
the document it loaded. The changes are listed once, by kind, with the guards the source makes
before them.
-/

namespace FrappeController
namespace AgentUpgrades

open FrappeInventory (Session read)
open ServerAgent (Saved OtherRefusal)
open AgentRequests (check)
open Transaction (Triple)

/-! ## Changes -/

inductive Kind where
  | plan | drain | observe | confirm | fail | cancel | complete
  deriving DecidableEq, Repr

/-- A drain that is already recorded and a digest that is already known are not written again. -/
def Kind.optional : Kind → Bool
  | .drain | .observe => true
  | _ => false

/-- The kinds of change a route action makes. -/
def RouteAction.kinds : RouteAction → List Kind
  | .poll => [.observe, .drain]
  | .deployed => [.confirm]
  | .failed => [.fail]
  | .verify => [.complete]

section Change

variable (zone : DateTime → DateTime) (now : DateTime)

/-- The document loaded, and the document handed to the save. -/
inductive Change : Kind → ServerAgent → ServerAgent → Prop
  | plan {a : ServerAgent} {actor version desired previous : String}
      (hstable : a.upgradeState.active = false) :
      Change .plan a (plan actor version desired previous (zone now) a)
  | drain {a : ServerAgent} {state : UpgradeState} (hdrain : undeployed a.upgradeState = true)
      (hstate : state = .draining ∨ state = .readyToDeploy) (hne : a.upgradeState ≠ state) :
      Change .drain a { a with upgradeState := state }
  | observe {a : ServerAgent} {observed : String} (hstable : a.upgradeState.active = false)
      (hempty : truthy a.observedImageDigest = false) :
      Change .observe a { a with observedImageDigest := some observed }
  | confirm {a : ServerAgent} {observed : String} {state : UpgradeState}
      (hchoice : deployChoice? a = some (some observed, state)) :
      Change .confirm a { a with
        observedImageDigest := some observed, upgradeDeployedAt := some (zone now)
        upgradeState := state }
  | fail {a : ServerAgent} {code : String}
      (hstate : a.upgradeState = .readyToDeploy ∨ a.upgradeState = .verifying) :
      Change .fail a { a with
        upgradeFailureCode := some code, upgradeState := .rollbackRequired }
  | cancel {a : ServerAgent} (hdrain : undeployed a.upgradeState = true) :
      Change .cancel a { a with
        upgradeState := .cancelled, upgradeFailureCode := some "operator_requested"
        drainRequested := false }
  | complete {a : ServerAgent} {expected : Expectation} (hexpected : expectation? a = some expected)
      (hdigest : a.observedImageDigest = expected.digest)
      (hhealthy : healthyPostDeploymentHeartbeat a expected.version = true) :
      Change .complete a (complete expected.completed (zone now) a)

end Change

variable {zone : DateTime → DateTime} {now : DateTime}

/-- A change keeps the name of its document. -/
theorem Change.name {kind : Kind} {a b : ServerAgent} (h : Change zone now kind a b) :
    b.name = a.name := by
  cases h <;> rfl

/-- A change keeps the timestamp the save compares. -/
theorem Change.modified {kind : Kind} {a b : ServerAgent} (h : Change zone now kind a b) :
    b.modified = a.modified := by
  cases h <;> rfl

/-- A drain is in progress or done. -/
theorem drainState_eq (c : Counts) : drainState c = .draining ∨ drainState c = .readyToDeploy := by
  unfold drainState
  split
  · exact .inl rfl
  · exact .inr rfl

/-- Every change is one the transition table lists. -/
theorem Change.legal {kind : Kind} {a b : ServerAgent} (h : Change zone now kind a b) :
    a.upgradeState = b.upgradeState ∨ b.upgradeState ∈ a.upgradeState.transitions := by
  cases h with
  | plan hstable =>
    right
    show UpgradeState.planned ∈ a.upgradeState.transitions
    revert hstable
    cases a.upgradeState <;> decide
  | @drain a state hdrain hstate hne =>
    right
    show state ∈ a.upgradeState.transitions
    -- draining is not entered from draining, nor readiness from readiness
    revert hdrain hne
    rcases hstate with rfl | rfl <;> cases a.upgradeState <;> decide
  | observe => exact .inl rfl
  | @confirm a observed state hchoice =>
    right
    show state ∈ a.upgradeState.transitions
    unfold deployChoice? at hchoice
    split at hchoice
    · rename_i hready
      obtain ⟨-, rfl⟩ := Prod.mk.inj (Option.some.inj hchoice)
      rw [hready]
      decide
    · rename_i hrollback
      obtain ⟨-, rfl⟩ := Prod.mk.inj (Option.some.inj hchoice)
      rw [hrollback]
      decide
    · cases hchoice
  | fail hstate =>
    right
    show UpgradeState.rollbackRequired ∈ a.upgradeState.transitions
    rcases hstate with hstate | hstate <;> rw [hstate] <;> decide
  | cancel hdrain =>
    right
    show UpgradeState.cancelled ∈ a.upgradeState.transitions
    revert hdrain
    cases a.upgradeState <;> decide
  | @complete a expected hexpected =>
    right
    show expected.completed ∈ a.upgradeState.transitions
    unfold expectation? at hexpected
    split at hexpected
    · rename_i hverifying
      rw [hverifying, ← Option.some.inj hexpected]
      exact List.mem_cons_self
    · rename_i hverifying
      rw [hverifying, ← Option.some.inj hexpected]
      exact List.mem_cons_self
    · cases hexpected

/-! ## Specifications -/

/-- The tables are as before, or one change of a document of theirs was saved. -/
def Effect (R : Runtime) (zone : DateTime → DateTime) (now : DateTime) (kinds : List Kind) (who : String → Prop) (s s' : Session) : Prop :=
  (kinds.all Kind.optional = true ∧ s'.current = s.current) ∨ ∃ kind ∈ kinds, ∃ loaded document row,
    Table.get? s.view.agents loaded.name = some loaded ∧ who loaded.name ∧
      Change zone now kind loaded document ∧ Saved R (zone now) true document s s' row

/-- From `s`, the computation has such an effect, and when its reads saw the committed rows it
is not refused by the transition table. -/
def Spec {α : Type} (R : Runtime) (zone : DateTime → DateTime) (now : DateTime) (kinds : List Kind) (who : String → Prop) (s : Session)
    (m : EStateM Exc Session α) : Prop :=
  Triple (· = s) m (fun _ s' => Effect R zone now kinds who s s')
    (fun e _ => s.view = s.current → OtherRefusal e)

section Rules

variable {R : Runtime} {kinds : List Kind} {who : String → Prop} {s : Session} {α β : Type}

/-- A result without a save is allowed where every change is optional. -/
theorem Spec.pure (hoptional : kinds.all Kind.optional = true) (a : α) :
    Spec R zone now kinds who s (pure a) := by
  refine Triple.pure fun s' hs => ?_
  exact .inl ⟨hoptional, by rw [hs]⟩

/-- Any other refusal may be raised at once. -/
theorem Spec.throw {e : Exc} (h : OtherRefusal e) :
    Spec R zone now kinds who s (throw e : EStateM Exc Session α) :=
  Triple.throw fun _ _ _ => h

/-- A read comes first, and what it raises is another refusal. -/
theorem Spec.read {f : Database → Except Exc α} {k : α → EStateM Exc Session β}
    (hf : Raises OtherRefusal (f s.view))
    (hk : ∀ a, f s.view = .ok a → Spec R zone now kinds who s (k a)) :
    Spec R zone now kinds who s (read f >>= k) :=
  Triple.query_bind hk fun e he _ => hf e he

/-- A pure check comes first, and what it raises is another refusal. -/
theorem Spec.expr {x : Except Exc α} {k : α → EStateM Exc Session β} (hx : Raises OtherRefusal x)
    (hk : ∀ a, x = .ok a → Spec R zone now kinds who s (k a)) :
    Spec R zone now kinds who s (expr x >>= k) :=
  Triple.query_bind hk fun e he _ => hx e he

/-- The rest may use the condition of a check. -/
theorem Spec.check {c : Bool} {e : Exc} {k : Unit → EStateM Exc Session β} (he : OtherRefusal e)
    (hk : c = true → Spec R zone now kinds who s (k ())) :
    Spec R zone now kinds who s (check c e >>= k) :=
  Triple.query_bind (fun _ h => hk (ensure_eq_ok.mp h))
    fun e' he' _ => (Raises.ensure (p := OtherRefusal) he) e' he'

/-- What follows a computation and changes nothing. -/
theorem Spec.andThen {m : EStateM Exc Session α} (hm : Spec R zone now kinds who s m)
    (f : α → β) : Spec R zone now kinds who s (m >>= fun a => Pure.pure (f a)) :=
  Triple.bind hm fun _ => Triple.pure fun _ h => h

/-- A weaker condition on the agent's name. -/
theorem Spec.weaken {who' : String → Prop} {m : EStateM Exc Session α}
    (hm : Spec R zone now kinds who s m) (hwho : ∀ name, who name → who' name) :
    Spec R zone now kinds who' s m := by
  refine Triple.conseq hm (fun _ h => h) (fun _ s' h => ?_) fun _ _ h => h
  rcases h with h | ⟨kind, hkind, loaded, document, row, hloaded, hname, hchange, hsaved⟩
  · exact .inl h
  · exact .inr ⟨kind, hkind, loaded, document, row, hloaded, hwho _ hname, hchange, hsaved⟩

/-- Translating the exceptions of the authoring makes no transition refusal of them. -/
theorem Spec.throwAuthoring {m : EStateM Exc Session α} (hm : Spec R zone now kinds who s m) :
    Spec R zone now kinds who s (throwAuthoring m) := by
  intro s' hs'
  have hspec := hm s' hs'
  unfold AgentUpgrades.throwAuthoring
  cases hrun : m s' with
  | ok a s'' =>
    rw [hrun] at hspec
    exact hspec
  | error e s'' =>
    rw [hrun] at hspec
    -- the only exception the block renames becomes a validation error
    cases e <;> exact hspec

/-- A save of a change of a loaded document. -/
theorem Spec.save (kind : Kind) {loaded document : ServerAgent} (hkind : kind ∈ kinds)
    (hloaded : Table.get? s.view.agents loaded.name = some loaded) (hwho : who loaded.name)
    (hchange : Change zone now kind loaded document) :
    Spec R zone now kinds who s (save R zone now document) := by
  refine Triple.intro ?_ ?_
  · rintro _ saved s' rfl hsave
    obtain ⟨-, row, hsaved⟩ := ServerAgent.save_eq_ok hsave
    exact .inr ⟨kind, hkind, loaded, document, row, hloaded, hwho, hchange, hsaved⟩
  · rintro _ e s' rfl hsave hsequential
    refine ServerAgent.save_raises (fun row hrow _ => ?_) hsave
    -- the stored row is the loaded one
    rw [hchange.name, ← hsequential, hloaded] at hrow
    rw [← Option.some.inj hrow]
    exact hchange.legal

end Rules

/-! ## Refusals of the reads -/

/-- The check of the role raises no refusal of the transition table. -/
theorem raises_admin (user : String) (db : Database) : Raises OtherRefusal (admin user db) :=
  .bind (.ensure rfl) fun _ _ => .ok _

/-- The check of an identity raises none. -/
theorem raises_identity (value : Json) (label : String) (pattern : String → Bool) :
    Raises OtherRefusal (identity value label pattern) := by
  unfold identity
  split
  · split
    · exact .ok _
    · exact .error rfl
  · exact .error rfl

/-- The lookup of the agent raises none. -/
theorem raises_agent (agentId : Json) (db : Database) : Raises OtherRefusal (agent agentId db) := by
  unfold agent
  split
  · refine .bind (.ensure rfl) fun _ _ => ?_
    split
    · exact .error rfl
    · exact .ok _
  · exact .error rfl

/-- The parse of a request raises none. -/
theorem raises_parseRequest (loadsStrict : Text → Option Json) (requestJson : Text) :
    Raises OtherRefusal (parseRequest loadsStrict requestJson) := by
  refine .bind (.ensure rfl) fun _ _ => ?_
  split
  · exact .error rfl
  · exact .bind (.ensure rfl) fun _ _ => .ok _
  · exact .error rfl

/-- The fields of a request are those its text decodes to. -/
theorem parseRequest_eq_ok {loadsStrict : Text → Option Json} {requestJson : Text}
    {value : List (String × Json)} (h : parseRequest loadsStrict requestJson = .ok value) :
    loadsStrict requestJson = some (.obj value) := by
  unfold parseRequest at h
  simp only [Transaction.bind_eq_ok, ensure_eq_ok] at h
  obtain ⟨-, -, hread⟩ := h
  split at hread
  · cases hread
  · rename_i fields hfields
    simp only [Transaction.bind_eq_ok, ensure_eq_ok] at hread
    obtain ⟨-, -, hvalue⟩ := hread
    rw [hfields, Except.ok.inj hvalue]
  · cases hread

/-- The check of a feature raises none. -/
theorem raises_requireFeature (db : Database) (feature : String) (environment : Option String) :
    Raises OtherRefusal (requireFeature db feature environment) := by
  unfold requireFeature
  split
  · exact .error rfl
  · split
    · exact .ok ()
    · exact .error rfl

/-- A document `_agent` returns is the row of its name. -/
theorem agent_eq_ok {agentId : Json} {db : Database} {document : ServerAgent}
    (h : agent agentId db = .ok document) :
    Table.get? db.agents document.name = some document ∧ agentId = .str document.name := by
  unfold agent at h
  split at h
  · simp only [Transaction.bind_eq_ok, ensure_eq_ok] at h
    obtain ⟨-, -, h⟩ := h
    split at h
    · cases h
    · rename_i id _ found hfound
      cases h
      have hname : document.name = id := Table.get?_name hfound
      rw [hname]
      exact ⟨hfound, rfl⟩
  · cases h

/-! ## The endpoints -/

section Endpoints

variable {R : Runtime} {s : Session} {kinds : List Kind}

/-- Every endpoint but the request begins so. -/
theorem Spec.adminAgent {α : Type} {user agentId : String}
    {k : ServerAgent → EStateM Exc Session α}
    (hk : ∀ document, Table.get? s.view.agents document.name = some document →
      document.name = agentId → Spec R zone now kinds (· = agentId) s (k document)) :
    Spec R zone now kinds (· = agentId) s
      (FrappeInventory.read (admin user) >>= fun _ =>
        FrappeInventory.read (agent (.str agentId)) >>= k) := by
  refine .read (raises_admin _ _) fun _ _ => .read (raises_agent _ _) fun document hdocument => ?_
  obtain ⟨hfound, hname⟩ := agent_eq_ok hdocument
  exact hk document hfound (by simpa using hname.symm)

/-- Counting the operations raises nothing. -/
theorem raises_counts (name : String) (db : Database) :
    Raises OtherRefusal (.ok (counts name db) : Except Exc Counts) := .ok _

/-- The check of a digest reads nothing and raises no refusal of the transition table. -/
theorem spec_observedDigest {α : Type} {value : String} {who : String → Prop}
    {k : String → EStateM Exc Session α}
    (hk : ∀ observed, Spec R zone now kinds who s (k observed)) :
    Spec R zone now kinds who s (observedDigest value >>= k) := by
  refine Triple.bind (Q := fun _ s' => s' = s) ?_ fun observed => ?_
  · intro s' hs'
    unfold observedDigest throwAuthoring expr
    rw [Transaction.query_apply]
    cases hid : identity (.str value) "observed image digest" isSha256 with
    | ok observed => exact hs'
    | error e =>
      have he := raises_identity _ _ _ e hid
      cases e <;> exact fun _ => he
  · intro s' hs'
    exact hk observed s' hs'

/-- A request plans an upgrade of the agent it names. -/
theorem requestAgentUpgrade_spec (loadsStrict : Text → Option Json) (user : String)
    (requestJson : Text) :
    Spec R zone now [.plan] (fun name => ∃ value, loadsStrict requestJson = some (.obj value) ∧
        Json.get value "agent_id" = .str name) s
      (requestAgentUpgrade R zone now loadsStrict user requestJson) := by
  refine .read (raises_admin _ _) fun actor _ => .throwAuthoring ?_
  refine .expr (raises_parseRequest _ _) fun value hvalue => ?_
  refine .expr (raises_identity _ _ _) fun version _ => ?_
  refine .expr (raises_identity _ _ _) fun desired _ => ?_
  refine .expr (raises_identity _ _ _) fun previous _ => ?_
  refine .read (raises_agent _ _) fun document hdocument => ?_
  refine .read (raises_requireFeature _ _ _) fun _ _ => ?_
  refine .check rfl fun hstable => .check rfl fun _ => .check rfl fun _ => .check rfl fun _ => ?_
  obtain ⟨hfound, hname⟩ := agent_eq_ok hdocument
  refine .andThen (.save .plan (by simp) hfound
    ⟨value, parseRequest_eq_ok hvalue, hname⟩ ?_) _
  exact .plan (by simpa using hstable)

/-- A refresh records the drain of its agent. -/
theorem refreshAgentDrain_spec (user agentId : String) :
    Spec R zone now [.drain] (· = agentId) s (refreshAgentDrain R zone now user agentId) := by
  refine .adminAgent fun document hfound hname => .check rfl fun hdrain => ?_
  refine .read (raises_counts _ _) fun c _ => ?_
  split
  · exact .pure rfl _
  · rename_i hne
    refine .andThen (.save .drain (by simp) hfound hname ?_) _
    exact .drain hdrain (drainState_eq c) hne

/-- A confirmation records the deployment of its agent. -/
theorem confirmAgentDeployment_spec (user agentId observed : String) :
    Spec R zone now [.confirm] (· = agentId) s
      (confirmAgentDeployment R zone now user agentId observed) := by
  refine .adminAgent fun document hfound hname => spec_observedDigest fun digest => ?_
  refine .check rfl fun hready => .read (raises_counts _ _) fun c _ => .check rfl fun _ => ?_
  simp only [Bool.and_eq_true, beq_iff_eq] at hready
  refine .andThen (.save .confirm (by simp) hfound hname (.confirm ?_)) _
  unfold deployChoice?
  rw [hready.1, hready.2]

/-- A failure asks for the rollback of its agent. -/
theorem requestAgentRollback_spec (user agentId failureCode : String) :
    Spec R zone now [.fail] (· = agentId) s
      (requestAgentRollback R zone now user agentId failureCode) := by
  refine .adminAgent fun document hfound hname => .check rfl fun hvalid => ?_
  simp only [Bool.or_eq_true, Bool.and_eq_true, beq_iff_eq] at hvalid
  refine .andThen (.save .fail (by simp) hfound hname (.fail ?_)) _
  rcases hvalid with ⟨hstate, -⟩ | ⟨hstate, -⟩
  · exact .inr hstate
  · exact .inl hstate

/-- A cancellation ends the upgrade of its agent. -/
theorem cancelAgentUpgrade_spec (user agentId : String) :
    Spec R zone now [.cancel] (· = agentId) s (cancelAgentUpgrade R zone now user agentId) := by
  refine .adminAgent fun document hfound hname => .check rfl fun hdrain => ?_
  exact .andThen (.save .cancel (by simp) hfound hname (.cancel hdrain)) _

/-- A confirmation records the rollback of its agent. -/
theorem confirmAgentRollback_spec (user agentId observed : String) :
    Spec R zone now [.confirm] (· = agentId) s
      (confirmAgentRollback R zone now user agentId observed) := by
  refine .adminAgent fun document hfound hname => spec_observedDigest fun digest => ?_
  refine .check rfl fun hready => .read (raises_counts _ _) fun c _ => .check rfl fun _ => ?_
  simp only [Bool.and_eq_true, beq_iff_eq] at hready
  refine .andThen (.save .confirm (by simp) hfound hname (.confirm ?_)) _
  unfold deployChoice?
  rw [hready.1, hready.2]

/-- A verification completes the upgrade of its agent. -/
theorem verifyAgentDeployment_spec (user agentId : String) :
    Spec R zone now [.complete] (· = agentId) s (verifyAgentDeployment R zone now user agentId) := by
  refine .adminAgent fun document hfound hname => ?_
  split
  · exact .throw rfl
  · rename_i expected hexpected
    refine .check rfl fun hdigest => .read (raises_counts _ _) fun c _ => ?_
    refine .check rfl fun _ => .check rfl fun hhealthy => ?_
    refine .andThen (.save .complete (by simp) hfound hname ?_) _
    exact .complete hexpected (by simpa using hdigest) hhealthy

/-! ## The route -/

variable {document : ServerAgent} {agentId : String}

/-- The authentication of a caller raises none. -/
theorem raises_authenticatePeer (peer path body : String) (db : Database) :
    Raises OtherRefusal (AgentRequests.authenticatePeer peer path body db) :=
  .bind (.ensure rfl) fun _ _ => .ensure rfl

/-- A stable agent has no drain to wait for. -/
theorem not_undeployed {state : UpgradeState} (h : state.active = false) :
    undeployed state = false := by
  revert h
  cases state <;> decide

/-- A poll records a first digest or the drain, and both may be recorded already. -/
theorem poll_spec (hfound : Table.get? s.view.agents document.name = some document)
    (hname : document.name = agentId) (observed : String) (c : Counts) :
    Spec R zone now [.observe, .drain] (· = agentId) s
      (act R zone now .poll observed c document) := by
  show Spec R zone now _ _ s (pollDigest R zone now observed document >>= fun document =>
    pollDrain R zone now c document >>= fun document =>
      pure (accepted document (instruction document)))
  by_cases hactive : document.upgradeState.active = true
  · -- an active upgrade: the digest is not looked at
    have hdigest : pollDigest R zone now observed document = pure document := by
      unfold pollDigest
      rw [hactive, Bool.or_true, if_pos rfl]
    rw [hdigest]
    show Spec R zone now _ _ s (pollDrain R zone now c document >>= fun document =>
      pure (accepted document (instruction document)))
    refine .andThen ?_ _
    unfold pollDrain
    split
    · rename_i hmove
      simp only [Bool.and_eq_true, bne_iff_ne, ne_eq] at hmove
      exact .save .drain (by simp) hfound hname
        (.drain hmove.1 (drainState_eq c) hmove.2)
    · exact .pure rfl _
  · have hstable : document.upgradeState.active = false := by simpa using hactive
    -- a stable one: there is nothing to drain, before and after the digest is recorded
    have hdrain : ∀ saved : ServerAgent, saved.upgradeState = document.upgradeState →
        pollDrain R zone now c saved = pure saved := by
      intro saved hsaved
      unfold pollDrain
      rw [hsaved, not_undeployed hstable]
      rfl
    refine Triple.bind (Q := fun saved s' => saved.upgradeState = document.upgradeState ∧
      Effect R zone now [.observe, .drain] (· = agentId) s s') ?_ fun saved s' hs' => ?_
    · unfold pollDigest
      split
      · exact Triple.pure fun s' hs' => ⟨rfl, .inl ⟨rfl, by rw [hs']⟩⟩
      · split
        · rename_i hempty
          have hsaves : Spec R zone now [.observe, .drain] (· = agentId) s
              (save R zone now { document with observedImageDigest := some observed }) :=
            .save .observe (by simp) hfound hname
              (.observe hstable (by simpa using hempty))
          refine Triple.intro ?_ fun s₀ e s' hs₀ hsave => Triple.error hsaves hs₀ hsave
          intro s₀ saved s' hs₀ hsave
          refine ⟨?_, Triple.ok hsaves hs₀ hsave⟩
          rw [(ServerAgent.save_eq_ok hsave).1, ServerAgent.stored, ServerAgent.normalize_eq]
        · split
          · exact Triple.throw fun _ _ _ => rfl
          · exact Triple.pure fun s' hs' => ⟨rfl, .inl ⟨rfl, by rw [hs']⟩⟩
    · rw [hdrain saved hs'.1]
      exact hs'.2

/-- The route's verification condition, where it passes. -/
theorem not_verificationPending {c : Counts} {observed : String}
    (h : verificationPending c observed document = false) :
    ∃ expected, expectation? document = some expected ∧
      document.observedImageDigest = expected.digest ∧
      healthyPostDeploymentHeartbeat document expected.version = true ∧
      expected.completed =
        if document.upgradeState = .verifying then UpgradeState.succeeded else .rolledBack := by
  unfold verificationPending at h
  simp only [Bool.or_eq_false_iff, Bool.not_eq_false', Bool.or_eq_true, beq_iff_eq,
    bne_eq_false_iff_eq] at h
  obtain ⟨⟨⟨⟨⟨⟨⟨hstate, -⟩, hdigest⟩, -⟩, honline⟩, hready⟩, hversion⟩, hfresh⟩ := h
  unfold healthyPostDeploymentHeartbeat expectation?
  rcases hstate with hstate | hstate
  · rw [hstate] at hdigest hversion
    refine ⟨_, by rw [hstate], hdigest, ?_, by rw [hstate]; rfl⟩
    simpa [honline, hready, hfresh] using hversion
  · rw [hstate] at hdigest hversion
    refine ⟨_, by rw [hstate], hdigest, ?_, by rw [hstate]; rfl⟩
    simpa [honline, hready, hfresh] using hversion

/-- Each action of the route makes changes of its own kinds. -/
theorem act_spec (hfound : Table.get? s.view.agents document.name = some document)
    (hname : document.name = agentId) (action : RouteAction) (observed : String) (c : Counts) :
    Spec R zone now action.kinds (· = agentId) s (act R zone now action observed c document) := by
  cases action with
  | poll => exact poll_spec hfound hname observed c
  | failed =>
    refine .check rfl fun _ => .check rfl fun hstate => ?_
    simp only [Bool.or_eq_true, beq_iff_eq] at hstate
    exact .andThen (.save .fail (by simp [RouteAction.kinds]) hfound hname
      (.fail hstate)) _
  | deployed =>
    refine .check rfl fun _ => .check rfl fun _ => ?_
    split
    · exact .throw rfl
    · rename_i digest state hchoice
      refine .check rfl fun hdigest => ?_
      refine .andThen (.save .confirm (by simp [RouteAction.kinds]) hfound hname
        (.confirm ?_)) _
      rw [hchoice, beq_iff_eq.mp hdigest]
  | verify =>
    refine .check rfl fun _ => .check rfl fun hpending => ?_
    obtain ⟨expected, hexpected, hdigest, hhealthy, hcompleted⟩ :=
      not_verificationPending (by simpa using hpending)
    refine .andThen (.save .complete (by simp [RouteAction.kinds]) hfound hname ?_) _
    rw [← hcompleted]
    exact .complete hexpected hdigest hhealthy

/-- The route changes the agent it was called for, and no other. -/
theorem upgradeAction_spec (routed : String) (request : RouteRequest) :
    Spec R zone now request.action.kinds (· = request.agentId) s
      (upgradeAction R zone now routed request) := by
  refine .read (raises_authenticatePeer _ _ _ _) fun _ _ => ?_
  refine .read ?_ fun document hdocument => .read (raises_counts _ _) fun c _ => ?_
  · split
    · exact .error rfl
    · exact .ok _
  · split at hdocument
    · cases hdocument
    · rename_i found hfound
      cases hdocument
      have hname : document.name = request.agentId := Table.get?_name hfound
      exact act_spec (by rw [hname]; exact hfound) hname request.action request.observed c

end Endpoints

end AgentUpgrades

end FrappeController
