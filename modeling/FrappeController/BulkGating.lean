import FrappeController.BulkOrchestrator
import FrappeController.DispatcherTheorems

/-!
# Canary gating and concurrency limits of a reconcile run

`reconcile` is run over any repository. `observed` lists the children it creates, and
`OneChildEach` is what is asked of the repository: a child created for a planned target is one
more operation in flight on the target's agent and bench.
-/

namespace FrappeController
namespace BulkOrchestrator

open Transaction (query forEach Tracks stateOf)
open Bulk

variable {σ : Type}

/-! ## The children a run creates -/

/-- The repository, with a list of the targets `create_child` was called for. -/
def observed (repository : BulkRepository σ) : BulkRepository (σ × List BulkTargetRuntime) where
  lockParent parentId s := repository.lockParent parentId s.1
  targets parentId s := repository.targets parentId s.1
  inflightCounts s := repository.inflightCounts s.1
  canStart target s := repository.canStart target s.1
  createChild parentId target childId key :=
    Transaction.recorded target (repository.createChild parentId target childId key)
  requestChildCancel parentId target :=
    Transaction.silent (repository.requestChildCancel parentId target)
  markUnstartedCancelled parentId target :=
    Transaction.silent (repository.markUnstartedCancelled parentId target)
  updateParent parentId state aggregate :=
    Transaction.silent (repository.updateParent parentId state aggregate)

variable (repository : BulkRepository σ) (R : Runtime)

theorem tracks_update (parentId : String) (active : BulkState) :
    Tracks (update (observed repository) parentId active) (update repository parentId active) :=
  .bind (.query _) fun _ => .bind (.silent _) fun _ => .pure _

theorem tracks_startTargets (policy : BulkExecutionPolicy) (parentId : String) :
    ∀ targets counts, Tracks (startTargets (observed repository) R policy parentId targets counts)
      (startTargets repository R policy parentId targets counts)
  | [], _ => .pure ()
  | target :: rest, counts => by
    have ih := tracks_startTargets policy parentId rest
    unfold startTargets
    refine .ite (ih counts) (.bind (.query _) fun startable => ?_)
    refine .ite (ih counts) (.ite (.pure ()) (.ite (ih counts) ?_))
    exact .bind (.recorded _ _) fun _ => ih _

theorem tracks_advance (parent : BulkParentRuntime) (parentId : String)
    (targets : List BulkTargetRuntime) :
    Tracks (advance (observed repository) R parent parentId targets)
      (advance repository R parent parentId targets) := by
  have hupdate := tracks_update repository parentId
  refine .ite (.pure _) (.ite ?_ (.ite (hupdate _) (.ite (hupdate _) ?_)))
  · refine .bind (.forEach (fun target => ?_) targets) fun _ => hupdate _
    exact .ite (.silent _) (.ite (.silent _) (.pure ()))
  · refine .bind (.query _) fun counts => .bind ?_ fun _ => ?_
    · exact tracks_startTargets repository R _ parentId _ counts
    exact .bind (.query _) fun refreshed => .ite (hupdate _) (hupdate _)

/-- Listing the children changes nothing else. -/
theorem tracks_reconcile (parentId : String) :
    Tracks (reconcile (observed repository) R parentId) (reconcile repository R parentId) :=
  .bind (.query (readParent repository parentId)) fun read =>
    tracks_advance repository R read.1 parentId read.2

/-- The targets a run calls `create_child` for, in order. -/
def children (parentId : String) (s : σ) : List BulkTargetRuntime :=
  (stateOf (reconcile (observed repository) R parentId (s, []))).2

/-! ## What the parts of a run create -/

/-- A step that calls `create_child` for none of the targets. -/
def CreatesNone {α : Type} (m : EStateM Exc (σ × List BulkTargetRuntime) α) : Prop :=
  ∀ s, (stateOf (m s)).2 = s.2

section CreatesNone

variable {α β : Type}

theorem CreatesNone.silent (m : EStateM Exc σ α) : CreatesNone (Transaction.silent m) := by
  intro s
  unfold Transaction.silent
  cases m s.1 <;> rfl

theorem CreatesNone.pure (a : α) :
    CreatesNone (Pure.pure a : EStateM Exc (σ × List BulkTargetRuntime) α) :=
  fun _ => rfl

theorem CreatesNone.query (f : σ × List BulkTargetRuntime → Except Exc α) :
    CreatesNone (Transaction.query f) := by
  intro s
  rw [Transaction.query_apply]
  cases f s <;> rfl

theorem CreatesNone.bind {m : EStateM Exc (σ × List BulkTargetRuntime) α}
    {f : α → EStateM Exc (σ × List BulkTargetRuntime) β} (hm : CreatesNone m)
    (hf : ∀ a, CreatesNone (f a)) : CreatesNone (m >>= f) := by
  intro s
  have hfirst := hm s
  rw [Transaction.bind_apply]
  cases h : m s with
  | ok a s' =>
    rw [h] at hfirst
    exact (hf a s').trans hfirst
  | error e s' =>
    rw [h] at hfirst
    exact hfirst

theorem CreatesNone.forEach {f : β → EStateM Exc (σ × List BulkTargetRuntime) Unit}
    (hf : ∀ b, CreatesNone (f b)) : ∀ bs, CreatesNone (Transaction.forEach f bs)
  | [] => .pure ()
  | b :: bs => .bind (hf b) fun _ => forEach hf bs

end CreatesNone

theorem createsNone_update (parentId : String) (active : BulkState) :
    CreatesNone (update (observed repository) parentId active) :=
  .bind (.query _) fun _ => .bind (.silent _) fun _ => .pure _

theorem createsNone_cancelTarget (parentId : String) (target : BulkTargetRuntime) :
    CreatesNone (cancelTarget (observed repository) parentId target) := by
  unfold cancelTarget
  by_cases hplanned : target.state = .planned
  · rw [if_pos hplanned]
    exact .silent _
  · rw [if_neg hplanned]
    by_cases hopen : (!target.state.terminal && !target.cancellationSent) = true
    · rw [if_pos hopen]
      exact .silent _
    · rw [if_neg hopen]
      exact .pure ()

/-- The loop creates planned targets of its list, each at most once and in order. -/
theorem startTargets_creates (policy : BulkExecutionPolicy) (parentId : String)
    (targets : List BulkTargetRuntime) (counts : InflightCounts)
    (s : σ × List BulkTargetRuntime) :
    ∃ new, (stateOf (startTargets (observed repository) R policy parentId targets counts s)).2
        = s.2 ++ new
      ∧ new.Sublist targets ∧ ∀ t ∈ new, t.state = .planned := by
  induction targets generalizing counts s with
  | nil => exact ⟨[], (List.append_nil _).symm, List.Sublist.refl _, fun t ht => by cases ht⟩
  | cons target rest ih =>
    -- a target that is passed over adds nothing to the log
    have hskip : ∀ counts, ∃ new,
        (stateOf (startTargets (observed repository) R policy parentId rest counts s)).2
          = s.2 ++ new
        ∧ new.Sublist (target :: rest) ∧ ∀ t ∈ new, t.state = .planned := by
      intro counts
      obtain ⟨new, hlog, hsub, hnew⟩ := ih counts s
      exact ⟨new, hlog, hsub.cons target, hnew⟩
    -- an end of the loop adds nothing either
    have hnone : ∃ new : List BulkTargetRuntime, s.2 = s.2 ++ new
        ∧ new.Sublist (target :: rest) ∧ ∀ t ∈ new, t.state = .planned :=
      ⟨[], (List.append_nil _).symm, List.nil_sublist _, fun t ht => by cases ht⟩
    unfold startTargets
    by_cases hplanned : target.state = .planned
    · rw [if_neg (not_not.mpr hplanned), Transaction.bind_apply, Transaction.query_apply]
      cases hstart : (observed repository).canStart target s with
      | error e => exact hnone
      | ok startable =>
        dsimp only
        cases startable with
        | false => exact hskip counts
        | true =>
          rw [if_neg (by simp)]
          by_cases hglobal : policy.globalConcurrency ≤ counts.globalCount
          · rw [if_pos hglobal]
            exact hnone
          · rw [if_neg hglobal]
            split
            · exact hskip counts
            · -- the one branch that creates: the target is recorded, then the rest follows
              rw [Transaction.bind_apply]
              cases hcreate : (observed repository).createChild parentId target
                (childIdentity R parentId target.snapshot.targetKey target.attempt).1
                (childIdentity R parentId target.snapshot.targetKey target.attempt).2 s with
              | ok u s' =>
                obtain ⟨-, hrecorded⟩ := Transaction.recorded_eq_ok hcreate
                obtain ⟨new, hlog, hsub, hnew⟩ := ih (counts.add target.snapshot.agentId
                  target.snapshot.benchId) s'
                refine ⟨target :: new, ?_, hsub.cons_cons target, ?_⟩
                · rw [hrecorded, List.append_assoc] at hlog
                  exact hlog
                · exact List.forall_mem_cons.mpr ⟨hplanned, hnew⟩
              | error e s' =>
                obtain ⟨-, hrecorded⟩ := Transaction.recorded_eq_error hcreate
                refine ⟨[target], hrecorded, (List.nil_sublist rest).cons_cons target, ?_⟩
                exact List.forall_mem_singleton.mpr hplanned
    · rw [if_pos hplanned]
      exact hskip counts

/-! ## What a run creates -/

section Advance

variable (parent : BulkParentRuntime) (parentId : String) (targets : List BulkTargetRuntime)

/-- A parent that is finished, to be cancelled or to be paused gets no child. -/
theorem createsNone_advance
    (hstopped : settled parent.state || parent.cancelRequested || parent.pauseRequested) :
    CreatesNone (advance (observed repository) R parent parentId targets) := by
  have hupdate := createsNone_update repository parentId
  unfold advance
  by_cases hsettled : settled parent.state = true
  · rw [if_pos hsettled]
    exact .pure _
  · rw [if_neg hsettled]
    by_cases hcancel : parent.cancelRequested = true
    · rw [if_pos hcancel]
      refine .bind (.forEach (fun target => ?_) targets) fun _ => hupdate _
      exact createsNone_cancelTarget repository parentId target
    · rw [if_neg hcancel]
      have hpause : parent.pauseRequested = true := by
        simpa [hsettled, hcancel] using hstopped
      rw [if_pos hpause]
      exact hupdate _

/-- What a run may create: nothing but planned targets, in order, and others than canaries
only after the canaries finished within the budget. -/
theorem advance_creates (s : σ × List BulkTargetRuntime) :
    ∃ new, (stateOf (advance (observed repository) R parent parentId targets s)).2 = s.2 ++ new
      ∧ new.Sublist (eligible parent.plan.policy targets) ∧ (∀ t ∈ new, t.state = .planned)
      ∧ (new ≠ [] → canariesExhausted parent targets = false) := by
  have hnone : ∀ log : List BulkTargetRuntime, log = s.2 → ∃ new, log = s.2 ++ new
      ∧ new.Sublist (eligible parent.plan.policy targets) ∧ (∀ t ∈ new, t.state = .planned)
      ∧ (new ≠ [] → canariesExhausted parent targets = false) := by
    rintro log rfl
    exact ⟨[], (List.append_nil _).symm, List.nil_sublist _, fun t ht => (List.not_mem_nil ht).elim,
      fun h => absurd rfl h⟩
  by_cases hstopped : (settled parent.state || parent.cancelRequested || parent.pauseRequested)
      = true
  · exact hnone _ (createsNone_advance repository R parent parentId targets hstopped s)
  · obtain ⟨⟨hsettled, hcancel⟩, hpause⟩ : (settled parent.state = false
        ∧ parent.cancelRequested = false) ∧ parent.pauseRequested = false := by
      simpa using hstopped
    have hupdate := createsNone_update repository parentId
    unfold advance
    rw [if_neg (by simp [hsettled]), if_neg (by simp [hcancel]), if_neg (by simp [hpause])]
    by_cases hexhausted : canariesExhausted parent targets = true
    · rw [if_pos hexhausted]
      exact hnone _ (hupdate _ s)
    · rw [if_neg hexhausted]
      unfold fanOut
      rw [Transaction.bind_apply, Transaction.query_apply]
      cases hcounts : (observed repository).inflightCounts s with
      | error e => exact hnone _ rfl
      | ok counts =>
        dsimp only
        obtain ⟨new, hlog, hsub, hplanned⟩ := startTargets_creates repository R parent.plan.policy
          parentId (eligible parent.plan.policy targets) counts s
        refine ⟨new, ?_, hsub, hplanned, fun _ => Bool.eq_false_iff.mpr hexhausted⟩
        rw [Transaction.bind_apply]
        -- what follows the loop only refreshes the targets and updates the parent
        cases hloop : startTargets (observed repository) R parent.plan.policy parentId
            (eligible parent.plan.policy targets) counts s with
        | error e s' =>
          rw [hloop] at hlog
          exact hlog
        | ok u s' =>
          rw [hloop] at hlog
          refine Eq.trans ?_ hlog
          refine CreatesNone.bind (.query _) (fun refreshed => ?_) s'
          split
          · exact hupdate _
          · exact hupdate _

end Advance

/-! ## The limits -/

/-- No count is above both its value before and the policy's limit. -/
structure Within (policy : BulkExecutionPolicy) (before after : InflightCounts) : Prop where
  global : (after.globalCount : ℤ) ≤ max (before.globalCount : ℤ) policy.globalConcurrency
  agent : ∀ a, (after.byAgent a : ℤ) ≤ max (before.byAgent a : ℤ) policy.perAgentConcurrency
  bench : ∀ b, (after.byBench b : ℤ) ≤ max (before.byBench b : ℤ) policy.perBenchConcurrency

namespace Within

variable {policy : BulkExecutionPolicy} {before counts : InflightCounts}

theorem refl (policy : BulkExecutionPolicy) (counts : InflightCounts) :
    Within policy counts counts :=
  ⟨le_max_left _ _, fun _ => le_max_left _ _, fun _ => le_max_left _ _⟩

/-- One more operation where every limit leaves room. -/
theorem add (h : Within policy before counts) {agent bench : String}
    (hglobal : ¬ policy.globalConcurrency ≤ counts.globalCount)
    (hroom : belowLimits policy counts agent bench = true) :
    Within policy before (counts.add agent bench) := by
  obtain ⟨hagent, hbench⟩ : (counts.byAgent agent : ℤ) < policy.perAgentConcurrency
      ∧ (counts.byBench (agent, bench) : ℤ) < policy.perBenchConcurrency := by
    simpa [belowLimits] using hroom
  refine ⟨?_, fun a => ?_, fun b => ?_⟩
  · have hlimit : ((counts.globalCount + 1 : ℕ) : ℤ) ≤ policy.globalConcurrency := by
      push_cast
      omega
    exact hlimit.trans (le_max_right _ _)
  · show ((Function.update counts.byAgent agent (counts.byAgent agent + 1) a : ℕ) : ℤ) ≤ _
    -- only the count of this agent grows
    by_cases ha : a = agent
    · rw [ha, Function.update_self]
      have hlimit : ((counts.byAgent agent + 1 : ℕ) : ℤ) ≤ policy.perAgentConcurrency := by
        push_cast
        omega
      exact hlimit.trans (le_max_right _ _)
    · rw [Function.update_of_ne ha]
      exact h.agent a
  · show ((Function.update counts.byBench (agent, bench) (counts.byBench (agent, bench) + 1) b : ℕ)
        : ℤ) ≤ _
    by_cases hb : b = (agent, bench)
    · rw [hb, Function.update_self]
      have hlimit : ((counts.byBench (agent, bench) + 1 : ℕ) : ℤ) ≤ policy.perBenchConcurrency := by
        push_cast
        omega
      exact hlimit.trans (le_max_right _ _)
    · rw [Function.update_of_ne hb]
      exact h.bench b

end Within

/-- What the limits ask of a repository: `create_child` for a planned target adds one operation
in flight on the target's agent and bench (or none, if it raises), and recording the parent's
progress adds none. -/
structure OneChildEach (repository : BulkRepository σ) : Prop where
  created : ∀ {parentId childId key : String} {target : BulkTargetRuntime} {s s' : σ}
    {counts : InflightCounts}, target.state = .planned →
    repository.inflightCounts s = .ok counts →
    repository.createChild parentId target childId key s = .ok () s' →
    repository.inflightCounts s' = .ok (counts.add target.snapshot.agentId target.snapshot.benchId)
  refused : ∀ {parentId childId key : String} {target : BulkTargetRuntime} {s s' : σ} {e : Exc}
    {counts : InflightCounts}, target.state = .planned →
    repository.inflightCounts s = .ok counts →
    repository.createChild parentId target childId key s = .error e s' →
    repository.inflightCounts s' = .ok counts
      ∨ repository.inflightCounts s'
        = .ok (counts.add target.snapshot.agentId target.snapshot.benchId)
  progress : ∀ (parentId : String) (state : BulkState) (aggregate : BulkAggregate) (s : σ),
    repository.inflightCounts (stateOf (repository.updateParent parentId state aggregate s))
      = repository.inflightCounts s

section Limits

variable {repository R} (law : OneChildEach repository) {policy : BulkExecutionPolicy}
variable {before : InflightCounts}

/-- The counts the repository has in a state are within the limits. -/
def CountsWithin (repository : BulkRepository σ) (policy : BulkExecutionPolicy)
    (before : InflightCounts) (s : σ) : Prop :=
  ∃ after, repository.inflightCounts s = .ok after ∧ Within policy before after

include law

/-- The loop's own counts are the repository's, so its checks keep the limits. -/
theorem startTargets_within (parentId : String) (targets : List BulkTargetRuntime)
    (counts : InflightCounts) (s : σ) (hcounts : repository.inflightCounts s = .ok counts)
    (hwithin : Within policy before counts) :
    CountsWithin repository policy before
      (stateOf (startTargets repository R policy parentId targets counts s)) := by
  induction targets generalizing counts s with
  | nil => exact ⟨counts, hcounts, hwithin⟩
  | cons target rest ih =>
    unfold startTargets
    by_cases hplanned : target.state = .planned
    · rw [if_neg (not_not.mpr hplanned), Transaction.bind_apply, Transaction.query_apply]
      cases hstart : repository.canStart target s with
      | error e => exact ⟨counts, hcounts, hwithin⟩
      | ok startable =>
        dsimp only
        cases startable with
        | false => exact ih counts s hcounts hwithin
        | true =>
          rw [if_neg (by simp)]
          by_cases hglobal : policy.globalConcurrency ≤ counts.globalCount
          · rw [if_pos hglobal]
            exact ⟨counts, hcounts, hwithin⟩
          · rw [if_neg hglobal]
            cases hroom : belowLimits policy counts target.snapshot.agentId
                target.snapshot.benchId with
            | false => exact ih counts s hcounts hwithin
            | true =>
              rw [if_neg (by simp)]
              -- there is room for one more, so the counts with it are within the policy
              have hmore := hwithin.add hglobal hroom
              rw [Transaction.bind_apply]
              cases hcreate : repository.createChild parentId target
                (childIdentity R parentId target.snapshot.targetKey target.attempt).1
                (childIdentity R parentId target.snapshot.targetKey target.attempt).2 s with
              | ok u s' =>
                exact ih _ s' (law.created hplanned hcounts hcreate) hmore
              | error e s' =>
                -- a creation that raises may have committed its child or not
                rcases law.refused hplanned hcounts hcreate with hsame | hadded
                · exact ⟨_, hsame, hwithin⟩
                · exact ⟨_, hadded, hmore⟩
    · rw [if_pos hplanned]
      exact ih counts s hcounts hwithin

theorem update_within (parentId : String) (active : BulkState) (s : σ)
    (h : CountsWithin repository policy before s) :
    CountsWithin repository policy before (stateOf (update repository parentId active s)) := by
  obtain ⟨counts, hcounts, hwithin⟩ := h
  refine ⟨counts, ?_, hwithin⟩
  unfold update
  rw [Transaction.bind_apply, Transaction.query_apply]
  cases htargets : repository.targets parentId s with
  | error e => exact hcounts
  | ok targets =>
    dsimp only
    have hprogress := law.progress parentId (finalState targets active)
      (aggregateChildStates (states targets)) s
    rw [Transaction.bind_apply]
    -- an update that raises has changed nothing the counts depend on
    cases hupdate : repository.updateParent parentId (finalState targets active)
        (aggregateChildStates (states targets)) s with
    | ok u s' =>
      rw [hupdate] at hprogress
      exact hprogress.trans hcounts
    | error e s' =>
      rw [hupdate] at hprogress
      exact hprogress.trans hcounts

theorem advance_within (parent : BulkParentRuntime) (parentId : String)
    (targets : List BulkTargetRuntime) (s : σ)
    (hcancel : parent.cancelRequested = true → settled parent.state = true)
    (hbefore : repository.inflightCounts s = .ok before) :
    CountsWithin repository parent.plan.policy before
      (stateOf (advance repository R parent parentId targets s)) := by
  have hstart : CountsWithin repository parent.plan.policy before s :=
    ⟨before, hbefore, .refl _ _⟩
  -- the branches that only record the progress start nothing
  have hupdate := fun active => update_within law parentId active s hstart
  unfold advance
  by_cases hsettled : settled parent.state = true
  · rw [if_pos hsettled]
    exact hstart
  · rw [if_neg hsettled, if_neg (fun h => hsettled (hcancel h))]
    by_cases hpause : parent.pauseRequested = true
    · rw [if_pos hpause]
      exact hupdate _
    · rw [if_neg hpause]
      by_cases hexhausted : canariesExhausted parent targets = true
      · rw [if_pos hexhausted]
        exact hupdate _
      · rw [if_neg hexhausted]
        unfold fanOut
        rw [Transaction.bind_apply, Transaction.query_apply, hbefore]
        dsimp only
        -- the loop counts from the children that are in flight before it
        have hloop := startTargets_within (R := R) law parentId
          (eligible parent.plan.policy targets) before s hbefore (.refl parent.plan.policy before)
        rw [Transaction.bind_apply]
        cases hrun : startTargets repository R parent.plan.policy parentId
            (eligible parent.plan.policy targets) before s with
        | error e s' =>
          rw [hrun] at hloop
          exact hloop
        | ok u s' =>
          rw [hrun] at hloop
          show CountsWithin _ _ _ (stateOf ((query (repository.targets parentId) >>= _) s'))
          rw [Transaction.bind_apply, Transaction.query_apply]
          cases hrefreshed : repository.targets parentId s' with
          | error e => exact hloop
          | ok refreshed =>
            dsimp only
            split
            · exact update_within law parentId _ s' hloop
            · exact update_within law parentId _ s' hloop

end Limits

/-! ## The run -/

/-- What one run keeps to, on the parent and the targets it read. -/
structure Bounded (repository : BulkRepository σ) (R : Runtime) (parentId : String) (s : σ)
    (parent : BulkParentRuntime) (targets : List BulkTargetRuntime) : Prop where
  /-- The run whose children are listed is this very run. -/
  run : Transaction.forget (reconcile (observed repository) R parentId (s, []))
    = reconcile repository R parentId s
  /-- Cancellation operations apart, no count rises above its limit. -/
  limits : (parent.cancelRequested = true → settled parent.state = true) →
    ∀ before, repository.inflightCounts s = .ok before →
      CountsWithin repository parent.plan.policy before
        (stateOf (reconcile repository R parentId s))
  /-- A child is for a planned target, and for each at most once. -/
  planned : (children repository R parentId s).Sublist targets
    ∧ ∀ t ∈ children repository R parentId s, t.state = .planned
  gated : ∀ t ∈ children repository R parentId s, t ∉ canaries parent.plan.policy targets →
    allTerminal (canaries parent.plan.policy targets) = true
      ∧ failureBudgetExhausted (states (canaries parent.plan.policy targets)) parent.plan.policy
        = false
  stopped : settled parent.state = true ∨ parent.pauseRequested = true
    ∨ parent.cancelRequested = true → children repository R parentId s = []

theorem reconcile_of_read {repository : BulkRepository σ} {parentId : String} {s : σ}
    {read : BulkParentRuntime × List BulkTargetRuntime}
    (h : readParent repository parentId s = .ok read) :
    reconcile repository R parentId s = advance repository R read.1 parentId read.2 s := by
  unfold reconcile
  rw [Transaction.bind_apply, Transaction.query_apply, h]

theorem children_of_read {repository : BulkRepository σ} {parentId : String} {s : σ}
    {read : BulkParentRuntime × List BulkTargetRuntime}
    (h : readParent repository parentId s = .ok read) :
    children repository R parentId s
      = (stateOf (advance (observed repository) R read.1 parentId read.2 (s, []))).2 := by
  have hread : readParent (observed repository) parentId (s, []) = .ok read := h
  rw [children, reconcile_of_read R hread]

theorem eligible_sublist (policy : BulkExecutionPolicy) (targets : List BulkTargetRuntime) :
    (eligible policy targets).Sublist targets := by
  unfold eligible
  split
  · exact List.Sublist.refl targets
  · exact List.take_sublist _ targets

/-- A run that cannot read its parent raises and does nothing; any other is `Bounded`. -/
theorem reconcile_bounded {repository : BulkRepository σ} (law : OneChildEach repository)
    (R : Runtime) (parentId : String) (s : σ) :
    match readParent repository parentId s with
    | .error e =>
      reconcile repository R parentId s = .error e s ∧ children repository R parentId s = []
    | .ok read => Bounded repository R parentId s read.1 read.2 := by
  -- a parent that cannot be read starts nothing
  cases hread : readParent repository parentId s with
  | error e =>
    have hobserved : readParent (observed repository) parentId (s, []) = .error e := hread
    dsimp only
    constructor
    · rw [reconcile, Transaction.bind_apply, Transaction.query_apply, hread]
    · rw [children, reconcile, Transaction.bind_apply, Transaction.query_apply, hobserved]
      rfl
  | ok read =>
    obtain ⟨parent, targets⟩ := read
    have hchildren := children_of_read R hread
    obtain ⟨new, hlog, hsub, hplanned, hexhausted⟩ :=
      advance_creates repository R parent parentId targets (s, [])
    rw [List.nil_append] at hlog
    have hnew : children repository R parentId s = new := hchildren.trans hlog
    refine ⟨tracks_reconcile repository R parentId s [], fun hcancel before hbefore => ?_, ?_, ?_,
      fun hstopped => ?_⟩
    · rw [reconcile_of_read R hread]
      exact advance_within law parent parentId targets s hcancel hbefore
    · rw [hnew]
      exact ⟨hsub.trans (eligible_sublist parent.plan.policy targets), hplanned⟩
    -- a target that is no canary is eligible only behind finished canaries
    · intro t ht hother
      rw [hnew] at ht
      have hallowed := hexhausted (List.ne_nil_of_mem ht)
      have hmem : t ∈ eligible parent.plan.policy targets := hsub.subset ht
      cases hterminal : allTerminal (canaries parent.plan.policy targets) with
      | false =>
        rw [eligible, hterminal, if_neg (by simp)] at hmem
        exact absurd hmem hother
      | true =>
        refine ⟨rfl, ?_⟩
        simpa [canariesExhausted, hterminal] using hallowed
    · dsimp only at hstopped
      rw [hchildren]
      refine createsNone_advance repository R parent parentId targets ?_ (s, [])
      rcases hstopped with h | h | h <;> simp [h]

/-! ## A repository in memory -/

namespace Sample

/-- A bulk parent, its targets and the agent and bench of every operation in flight. -/
structure Store where
  parent : BulkParentRuntime
  targets : List BulkTargetRuntime
  inflight : List (String × String)

/-- The target with what was written to the row of its snapshot. -/
def Store.setTarget (store : Store) (target : BulkTargetRuntime)
    (f : BulkTargetRuntime → BulkTargetRuntime) : Store :=
  { store with
    targets := store.targets.map fun t => if t.snapshot = target.snapshot then f t else t }

def Store.send (store : Store) (target : BulkTargetRuntime) : Store :=
  { store with
    inflight := store.inflight ++ [(target.snapshot.agentId, target.snapshot.benchId)] }

/-- Children and cancellations both are operations in flight, as `FrappeBulkRepository`
counts them. -/
def memory : BulkRepository Store where
  lockParent _ store := .ok store.parent
  targets _ store := .ok store.targets
  inflightCounts store := .ok {
    globalCount := store.inflight.length
    byAgent := fun agent => store.inflight.countP fun op => op.1 == agent
    byBench := fun bench => store.inflight.countP fun op => op == bench }
  canStart _ _ := .ok true
  createChild _ target childId _ :=
    modify fun store => (store.setTarget target fun t =>
      { t with state := .child .queued, childOperationId := some childId }).send target
  requestChildCancel _ target :=
    modify fun store => (store.setTarget target fun t => { t with cancellationSent := true }).send
      target
  markUnstartedCancelled _ target :=
    modify fun store => store.setTarget target fun t => { t with state := .child .cancelled }
  updateParent _ state _ :=
    modify fun store => { store with parent := { store.parent with state := state } }

theorem memory_oneChildEach : OneChildEach memory where
  created := by
    intro parentId childId key target s s' counts _ hcounts hcreate
    cases hcounts
    cases hcreate
    refine congrArg Except.ok ?_
    simp only [Store.send, Store.setTarget, InflightCounts.add, List.length_append,
      List.length_singleton, List.countP_append, List.countP_singleton, InflightCounts.mk.injEq,
      true_and]
    constructor
    · funext agent
      by_cases hagent : agent = target.snapshot.agentId
      · simp [hagent]
      · simp [Function.update_of_ne hagent, Ne.symm hagent]
    · funext bench
      by_cases hbench : bench = (target.snapshot.agentId, target.snapshot.benchId)
      · simp [hbench]
      · simp [Function.update_of_ne hbench, Ne.symm hbench]
  refused := by
    intro parentId childId key target s s' e counts _ _ hcreate
    cases hcreate
  progress := fun _ _ _ _ => rfl

def digest : String := "7777777777777777777777777777777777777777777777777777777777777777"

def fields (ordinal : ℤ) (site : String) : TargetFields where
  ordinal := ordinal
  agentId := "agent-a"
  benchId := "bench"
  siteId := site
  siteDomain := "site.example.com"
  environment := "production"
  inventoryRevision := digest

theorem fields_valid : (fields 0 "site-a").postInit = .ok () ∧ (fields 1 "site-b").postInit = .ok ()
    ∧ (fields 2 "site-c").postInit = .ok () := by
  decide +kernel

def first : BulkTargetSnapshot := ⟨fields 0 "site-a", fields_valid.1⟩

def second : BulkTargetSnapshot := ⟨fields 1 "site-b", fields_valid.2.1⟩

def third : BulkTargetSnapshot := ⟨fields 2 "site-c", fields_valid.2.2⟩

/-- The policy of a created parent with three targets. -/
def policy : BulkExecutionPolicy :=
  ⟨{ maximumTargets := 3, canarySize := 1, globalConcurrency := 3, perAgentConcurrency := 2
     perBenchConcurrency := 1, maximumFailures := 0, maximumFailureRatio := 0 }, by decide +kernel⟩

def selector : BulkSelector :=
  ⟨{ exactSiteIds := [], environment := none, agentIds := ["agent-a"], benchIds := [],
     labels := [] }, by decide +kernel⟩

def plan : BulkPlan :=
  ⟨{ parentOperationId := "bulk-1", operationType := "data.update", payloadHash := digest
     selector := selector, targets := [first, second, third], dryRunHash := digest
     policy := policy, retryOf := none }, by decide +kernel⟩

def target (snapshot : BulkTargetSnapshot) (state : BulkTargetState) : BulkTargetRuntime where
  snapshot := snapshot
  state := state
  childOperationId := none
  attempt := 0
  cancellationSent := false

def parent (state : BulkState) (cancelRequested : Bool) : BulkParentRuntime where
  parentId := "bulk-1"
  plan := plan
  state := state
  pauseRequested := false
  cancelRequested := cancelRequested

/-- The budget of a parent ran out after its canary, and the last run paused it. -/
def paused : Store where
  parent := parent .paused false
  targets := [target first (.child .succeeded), target second (.child .failed),
    target third .planned]
  inflight := []

/-- A parent to be cancelled, whose second child runs. -/
def cancelling : Store where
  parent := parent .running true
  targets := [target first (.child .succeeded), target second (.child .running),
    target third .planned]
  inflight := [("agent-a", "bench")]

/-- A parent whose canary succeeded. -/
def running : Store where
  parent := parent .running false
  targets := [target first (.child .succeeded), target second .planned, target third .planned]
  inflight := []

/-- The operations in flight on the bench. -/
def onBench (store : Store) : ℕ := store.inflight.countP fun op => op == ("agent-a", "bench")

/-- `uuid5` of the names that occur below. -/
def runtime : Runtime :=
  { Dispatcher.Sample.runtime [] [] with
    uuid5 := fun scope _ =>
      if scope = namespaceUrl then "5888e5a0-352e-5a4b-8e55-625b3a04a720"
      else "3c1938fd-e0fc-5fb1-9e8b-0b31b596cbf9" }

end Sample

open Sample in
/-- A parent that is paused, but whose pause nobody requested, gets another child; and the
cancellation of a running child is a second operation in flight on a bench limited to one. -/
theorem paused_starts_and_cancelling_exceeds :
    OneChildEach memory
      ∧ (paused.parent.state = .paused
        ∧ children memory runtime "bulk-1" paused = [target third .planned])
      ∧ (policy.perBenchConcurrency = 1 ∧ onBench cancelling = 1
        ∧ onBench (stateOf (reconcile memory runtime "bulk-1" cancelling)) = 2) :=
  ⟨memory_oneChildEach, ⟨rfl, by with_unfolding_all rfl⟩, rfl, rfl, by with_unfolding_all rfl⟩

open Sample in
/-- A running parent whose canary succeeded starts as much of the rest as the bench allows. -/
theorem reconcile_bounded_sample :
    Bounded memory runtime "bulk-1" running running.parent running.targets
      ∧ children memory runtime "bulk-1" running = [target second .planned] :=
  ⟨reconcile_bounded memory_oneChildEach runtime "bulk-1" running, by with_unfolding_all rfl⟩

end BulkOrchestrator
end FrappeController
