import FrappeController.Bulk
import FrappeController.Library.Trace
import Mathlib.Logic.Function.Basic

/-!
# `bulk_orchestrator.py`: fan-out over any repository

`reconcile` reads a bulk parent and its targets from a `BulkRepository` and starts, cancels or
finishes its targets through it. A repository is given by what its methods read from and do
to a state of any type; `FrappeBulkRepository` is one.
-/

namespace FrappeController

open Transaction (query forEach)
open Bulk

structure BulkParentRuntime where
  parentId : String
  plan : BulkPlan
  state : BulkState
  pauseRequested : Bool
  cancelRequested : Bool

structure BulkTargetRuntime where
  snapshot : BulkTargetSnapshot
  state : BulkTargetState
  childOperationId : Option String
  attempt : ℤ
  cancellationSent : Bool
  deriving DecidableEq

/-- Two counters by key; a key that is absent counts zero. -/
structure InflightCounts where
  globalCount : ℕ
  byAgent : String → ℕ
  byBench : String × String → ℕ

/-- The counts with one more operation on the bench of the agent. -/
def InflightCounts.add (counts : InflightCounts) (agent bench : String) : InflightCounts where
  globalCount := counts.globalCount + 1
  byAgent := Function.update counts.byAgent agent (counts.byAgent agent + 1)
  byBench := Function.update counts.byBench (agent, bench) (counts.byBench (agent, bench) + 1)

/-- `BulkRepository(Protocol)`. `lock_parent` yields what it read under the lock. -/
structure BulkRepository (σ : Type) where
  lockParent : String → σ → Except Exc BulkParentRuntime
  targets : String → σ → Except Exc (List BulkTargetRuntime)
  inflightCounts : σ → Except Exc InflightCounts
  canStart : BulkTargetRuntime → σ → Except Exc Bool
  createChild : String → BulkTargetRuntime → String → String → EStateM Exc σ Unit
  requestChildCancel : String → BulkTargetRuntime → EStateM Exc σ Unit
  markUnstartedCancelled : String → BulkTargetRuntime → EStateM Exc σ Unit
  updateParent : String → BulkState → BulkAggregate → EStateM Exc σ Unit

namespace BulkOrchestrator

/-- `uuid.NAMESPACE_URL` -/
def namespaceUrl : String := "6ba7b811-9dad-11d1-80b4-00c04fd430c8"

/-- `_child_identity`: the child's operation id and its idempotency key. -/
def childIdentity (R : Runtime) (parentId targetKey : String) (attempt : ℤ) : String × String :=
  let scope := R.uuid5 namespaceUrl ("frappe-controller:bulk:" ++ parentId)
  let child := R.uuid5 scope (targetKey ++ ":" ++ toString attempt)
  (child, "bulk:" ++ parentId ++ ":" ++ targetKey ++ ":" ++ toString attempt ++ ":" ++ child)

/-- The states of parents `reconcile` leaves alone. -/
def settled : BulkState → Bool
  | .succeeded | .partlySucceeded | .cancelled | .failed => true
  | _ => false

/-- The persisted targets are the plan's, in its order. -/
def checkTargets (parent : BulkParentRuntime) (targets : List BulkTargetRuntime) :
    Except Exc Unit := do
  ensure (targets.length == parent.plan.targets.length)
    (.bulkOrchestration "bulk target snapshot count changed")
  ensure (targets.map (·.snapshot) == parent.plan.targets)
    (.bulkOrchestration "bulk target snapshot changed")

/-- `targets[:canary_size]` -/
def canaries (policy : BulkExecutionPolicy) (targets : List BulkTargetRuntime) :
    List BulkTargetRuntime :=
  targets.take (min policy.canarySize targets.length).toNat

def allTerminal (targets : List BulkTargetRuntime) : Bool := targets.all (·.state.terminal)

def states (targets : List BulkTargetRuntime) : List BulkTargetState := targets.map (·.state)

/-- The state `_update` gives a parent with these targets. -/
def finalState (targets : List BulkTargetRuntime) (active : BulkState) : BulkState :=
  let aggregate := aggregateChildStates (states targets)
  if allTerminal targets then
    if aggregate.succeeded = aggregate.total then .succeeded
    else if aggregate.cancelled = aggregate.total then .cancelled
    else .partlySucceeded
  else active

variable {σ : Type} (repository : BulkRepository σ) (R : Runtime)

/-- `BulkOrchestrator._update` -/
def update (parentId : String) (active : BulkState) : EStateM Exc σ BulkState := do
  let targets ← query (repository.targets parentId)
  let state := finalState targets active
  repository.updateParent parentId state (aggregateChildStates (states targets))
  return state

/-- What a cancellation does with one target. -/
def cancelTarget (parentId : String) (target : BulkTargetRuntime) : EStateM Exc σ Unit :=
  if target.state = .planned then repository.markUnstartedCancelled parentId target
  else if !target.state.terminal && !target.cancellationSent then
    repository.requestChildCancel parentId target
  else pure ()

/-- Whether the limits of the policy leave room for one more operation on the bench. -/
def belowLimits (policy : BulkExecutionPolicy) (counts : InflightCounts) (agent bench : String) :
    Bool :=
  counts.byAgent agent < policy.perAgentConcurrency
    && counts.byBench (agent, bench) < policy.perBenchConcurrency

/-- The loop of `reconcile` over the eligible targets, with the counts it keeps. -/
def startTargets (policy : BulkExecutionPolicy) (parentId : String) :
    List BulkTargetRuntime → InflightCounts → EStateM Exc σ Unit
  | [], _ => pure ()
  | target :: rest, counts =>
    if target.state ≠ .planned then startTargets policy parentId rest counts
    else do
      let startable ← query (repository.canStart target)
      if startable = false then startTargets policy parentId rest counts
      else if policy.globalConcurrency ≤ counts.globalCount then pure ()
      else if belowLimits policy counts target.snapshot.agentId target.snapshot.benchId = false then
        startTargets policy parentId rest counts
      else do
        let identity := childIdentity R parentId target.snapshot.targetKey target.attempt
        repository.createChild parentId target identity.1 identity.2
        startTargets policy parentId rest
          (counts.add target.snapshot.agentId target.snapshot.benchId)

/-- The targets `reconcile` may start: the canaries until each of them is terminal. -/
def eligible (policy : BulkExecutionPolicy) (targets : List BulkTargetRuntime) :
    List BulkTargetRuntime :=
  if allTerminal (canaries policy targets) then targets else canaries policy targets

/-- The last part of `reconcile`: start what may start, and pause on an exhausted budget. -/
def fanOut (parent : BulkParentRuntime) (parentId : String) (targets : List BulkTargetRuntime) :
    EStateM Exc σ BulkState := do
  let counts ← query repository.inflightCounts
  startTargets repository R parent.plan.policy parentId (eligible parent.plan.policy targets) counts
  let refreshed ← query (repository.targets parentId)
  if failureBudgetExhausted (states refreshed) parent.plan.policy then
    update repository parentId .paused
  else
    update repository parentId
      (if allTerminal (canaries parent.plan.policy targets) then .running else .canary)

/-- Every canary is terminal and their failures exhaust the budget. -/
def canariesExhausted (parent : BulkParentRuntime) (targets : List BulkTargetRuntime) : Bool :=
  let first := canaries parent.plan.policy targets
  allTerminal first && failureBudgetExhausted (states first) parent.plan.policy

/-- What `reconcile` does with the parent and the targets it read. -/
def advance (parent : BulkParentRuntime) (parentId : String) (targets : List BulkTargetRuntime) :
    EStateM Exc σ BulkState :=
  if settled parent.state then pure parent.state
  else if parent.cancelRequested then do
    forEach (cancelTarget repository parentId) targets
    update repository parentId .cancelling
  else if parent.pauseRequested then update repository parentId .paused
  else if canariesExhausted parent targets then update repository parentId .paused
  else fanOut repository R parent parentId targets

/-- What `reconcile` reads first: the locked parent and its targets, which are the plan's. -/
def readParent (parentId : String) (s : σ) :
    Except Exc (BulkParentRuntime × List BulkTargetRuntime) := do
  let parent ← repository.lockParent parentId s
  let targets ← repository.targets parentId s
  checkTargets parent targets
  return (parent, targets)

/-- `BulkOrchestrator.reconcile` -/
def reconcile (parentId : String) : EStateM Exc σ BulkState := do
  let read ← query (readParent repository parentId)
  advance repository R read.1 parentId read.2

end BulkOrchestrator
end FrappeController
