import FrappeController.FeatureFlags
import FrappeController.Inventory
import Mathlib.Data.Int.Log
import Mathlib.Data.Rat.Floor

/-!
# `bulk.py`: selectors, target snapshots, execution policies and plans

The dataclasses are structures whose last field says that `__post_init__` accepted them, so a
plan at hand is one the source could have built. Every plan has a canonical document
(`planJson`) and the hash of its text (`canonicalBulkHash`).
-/

namespace FrappeController
namespace Bulk

/-! ## States -/

/-- `_FAILURE_STATES` -/
def failureState : BulkTargetState → Bool
  | .child .failed | .child .timedOut | .child .deadLetter | .child .needsIntervention
  | .child .rejected => true
  | _ => false

/-! ## Field checks -/

def invalid (name : String) : Exc := .bulkContract ("invalid " ++ name)

/-- `_ID_RE` -/
def isId : String → Bool :=
  let alphanumeric (c : Char) := Ingestion.isUpper c || Ingestion.isLower c || Ingestion.isDigit c
  Ingestion.identifier alphanumeric
    (fun c => alphanumeric c || c == '.' || c == '_' || c == ':' || c == '-') 255

/-- `_identifier` -/
def identifier (value name : String) : Except Exc Unit := ensure (isId value) (invalid name)

/-- `_digest` -/
def digest (value name : String) : Except Exc Unit := ensure (isSha256 value) (invalid name)

/-- `_identifier` on every value, none of which need be a text. -/
def identifiers (name : String) : List Json → Except Exc (List String)
  | [] => .ok []
  | value :: rest =>
    match value.str? with
    | none => .error (invalid name)
    | some text => do
      identifier text name
      let texts ← identifiers name rest
      return text :: texts

/-- `_unique` -/
def unique (values : List Json) (name : String) (maximum : ℕ) : Except Exc (List String) := do
  ensure (values.length ≤ maximum) (invalid name)
  let normalized ← identifiers name values
  ensure (decide normalized.Nodup) (.bulkContract ("duplicate " ++ name))
  return Inventory.sortTexts normalized

/-! ## Selectors -/

/-- The arguments of `BulkSelector(...)`. -/
structure SelectorArguments where
  exactSiteIds : List Json
  environment : Json
  agentIds : List Json
  benchIds : List Json
  labels : List Json

structure SelectorFields where
  exactSiteIds : List String
  environment : Option String
  agentIds : List String
  benchIds : List String
  labels : List String
  deriving DecidableEq, Repr

/-- The fields as arguments. -/
def SelectorFields.arguments (s : SelectorFields) : SelectorArguments where
  exactSiteIds := s.exactSiteIds.map .str
  environment := Json.ofOption s.environment
  agentIds := s.agentIds.map .str
  benchIds := s.benchIds.map .str
  labels := s.labels.map .str

/-- `None`, or one of the environments. -/
def selectorEnvironment : Json → Except Exc (Option String)
  | .null => .ok none
  | .str environment =>
    if environments.contains environment then .ok (some environment)
    else .error (invalid "environment")
  | .arr _ | .obj _ => .error (.python "unhashable type")
  | _ => .error (invalid "environment")

/-- Whether a selector names anything at all. -/
def SelectorFields.selective (s : SelectorFields) : Bool :=
  !s.exactSiteIds.isEmpty || s.environment.isSome || !s.agentIds.isEmpty || !s.benchIds.isEmpty
    || !s.labels.isEmpty

/-- `BulkSelector.__post_init__` -/
def selectorPostInit (a : SelectorArguments) : Except Exc SelectorFields := do
  let exactSiteIds ← unique a.exactSiteIds "site id" 1000
  let agentIds ← unique a.agentIds "agent id" 128
  let benchIds ← unique a.benchIds "bench id" 128
  let labels ← unique a.labels "label" 32
  let environment ← selectorEnvironment a.environment
  let fields : SelectorFields := { exactSiteIds, environment, agentIds, benchIds, labels }
  ensure fields.selective (.bulkContract "bulk selector cannot match the entire fleet")
  return fields

/-- A selector is what `__post_init__` leaves as it is. -/
structure BulkSelector extends SelectorFields where
  valid : selectorPostInit toSelectorFields.arguments = .ok toSelectorFields
  deriving DecidableEq

/-! ## Target snapshots -/

structure TargetFields where
  ordinal : ℤ
  agentId : String
  benchId : String
  siteId : String
  siteDomain : String
  environment : String
  inventoryRevision : String
  deriving DecidableEq, Repr

namespace TargetFields

/-- `BulkTargetSnapshot.__post_init__`. A text of `_DOMAIN_RE` is its own lower case. -/
def postInit (t : TargetFields) : Except Exc Unit := do
  ensure (0 ≤ t.ordinal) (invalid "target ordinal")
  identifier t.agentId "agent_id"
  identifier t.benchId "bench_id"
  identifier t.siteId "site_id"
  ensure (Inventory.isDomain t.siteDomain) (invalid "site domain")
  ensure (environments.contains t.environment) (invalid "target environment")
  digest t.inventoryRevision "inventory revision"

end TargetFields

/-- One part of a target key: `f"{len(value.encode('utf-8'))}:{value}"` -/
def keyPart (value : String) : String := toString (utf8Length value.toList) ++ ":" ++ value

/-- `BulkTargetSnapshot.target_key` of the three ids. -/
def targetKeyOf (agentId benchId siteId : String) : String :=
  keyPart agentId ++ "|" ++ keyPart benchId ++ "|" ++ keyPart siteId

structure BulkTargetSnapshot extends TargetFields where
  valid : toTargetFields.postInit = .ok ()
  deriving DecidableEq

/-- `BulkTargetSnapshot.target_key` -/
def BulkTargetSnapshot.targetKey (t : BulkTargetSnapshot) : String :=
  targetKeyOf t.agentId t.benchId t.siteId

/-- `BulkTargetSnapshot(...)` -/
def TargetFields.new (t : TargetFields) : Except Exc BulkTargetSnapshot :=
  match h : t.postInit with
  | .ok () => .ok ⟨t, h⟩
  | .error e => .error e

/-! ## Execution policies -/

structure PolicyFields where
  maximumTargets : ℤ
  canarySize : ℤ
  globalConcurrency : ℤ
  perAgentConcurrency : ℤ
  perBenchConcurrency : ℤ
  maximumFailures : ℤ
  /-- A finite float. -/
  maximumFailureRatio : ℚ
  deriving DecidableEq, Repr

namespace PolicyFields

/-- One entry of `integer_bounds`. -/
def bounded (value minimum maximum : ℤ) (name : String) : Except Exc Unit :=
  ensure (minimum ≤ value && value ≤ maximum) (invalid name)

/-- `BulkExecutionPolicy.__post_init__` -/
def postInit (p : PolicyFields) : Except Exc Unit := do
  bounded p.maximumTargets 1 1000 "maximum_targets"
  bounded p.canarySize 1 100 "canary_size"
  bounded p.globalConcurrency 1 256 "global_concurrency"
  bounded p.perAgentConcurrency 1 64 "per_agent_concurrency"
  bounded p.perBenchConcurrency 1 32 "per_bench_concurrency"
  bounded p.maximumFailures 0 1000 "maximum_failures"
  ensure (p.canarySize ≤ p.maximumTargets) (.bulkContract "canary exceeds maximum targets")
  ensure (p.perAgentConcurrency ≤ p.globalConcurrency)
    (.bulkContract "agent concurrency exceeds global concurrency")
  ensure (p.perBenchConcurrency ≤ p.perAgentConcurrency)
    (.bulkContract "bench concurrency exceeds agent concurrency")
  ensure (0 ≤ p.maximumFailureRatio && p.maximumFailureRatio ≤ 1)
    (invalid "maximum failure ratio")

end PolicyFields

structure BulkExecutionPolicy extends PolicyFields where
  valid : toPolicyFields.postInit = .ok ()
  deriving DecidableEq

/-- `BulkExecutionPolicy(...)` -/
def PolicyFields.new (p : PolicyFields) : Except Exc BulkExecutionPolicy :=
  match h : p.postInit with
  | .ok () => .ok ⟨p, h⟩
  | .error e => .error e

/-! ## Plans -/

structure PlanFields where
  parentOperationId : String
  operationType : String
  payloadHash : String
  selector : BulkSelector
  targets : List BulkTargetSnapshot
  dryRunHash : String
  policy : BulkExecutionPolicy
  retryOf : Option String
  deriving DecidableEq

namespace PlanFields

variable (p : PlanFields)

/-- `BulkPlan.__post_init__` -/
def postInit : Except Exc Unit := do
  identifier p.parentOperationId "parent operation id"
  identifier p.operationType "operation type"
  digest p.payloadHash "payload hash"
  digest p.dryRunHash "dry-run hash"
  match p.retryOf with
  | none => pure ()
  | some parent => identifier parent "retry parent"
  ensure (!p.targets.isEmpty) (.bulkContract "bulk plan requires targets")
  ensure (p.targets.length ≤ p.policy.maximumTargets)
    (.bulkContract "bulk target count exceeds policy")
  ensure (p.targets.map (·.ordinal) == (List.range p.targets.length).map Int.ofNat)
    (.bulkContract "bulk targets must use deterministic contiguous order")
  let keys := p.targets.map (·.targetKey)
  ensure (decide keys.Nodup) (.bulkContract "bulk target snapshot contains duplicates")
  ensure (keys == Inventory.sortTexts keys)
    (.bulkContract "bulk target snapshot is not deterministically sorted")
  ensure (p.targets.all fun t =>
      (p.selector.environment.map (t.environment == ·)).getD true)
    (.bulkContract "target environment escapes selector")
  ensure (p.selector.environment != some "staging"
      || p.targets.all fun t => t.environment != "production")
    (.bulkContract "staging selector cannot include production")
  ensure (p.selector.exactSiteIds.isEmpty
      || p.targets.all fun t => p.selector.exactSiteIds.contains t.siteId)
    (.bulkContract "target escapes exact-site selector")

end PlanFields

structure BulkPlan extends PlanFields where
  valid : toPlanFields.postInit = .ok ()
  deriving DecidableEq

/-- `BulkPlan(...)` -/
def PlanFields.new (p : PlanFields) : Except Exc BulkPlan :=
  match h : p.postInit with
  | .ok () => .ok ⟨p, h⟩
  | .error e => .error e

/-! ## The canonical hash -/

/-- `asdict(selector)` -/
def selectorJson (s : SelectorFields) : Json :=
  .obj [("exact_site_ids", Inventory.texts s.exactSiteIds),
    ("environment", Json.ofOption s.environment), ("agent_ids", Inventory.texts s.agentIds),
    ("bench_ids", Inventory.texts s.benchIds), ("labels", Inventory.texts s.labels)]

/-- `asdict(target)` -/
def targetJson (t : TargetFields) : Json :=
  .obj [("ordinal", .int t.ordinal), ("agent_id", .str t.agentId), ("bench_id", .str t.benchId),
    ("site_id", .str t.siteId), ("site_domain", .str t.siteDomain),
    ("environment", .str t.environment), ("inventory_revision", .str t.inventoryRevision)]

/-- `asdict(policy)` -/
def policyJson (p : PolicyFields) : Json :=
  .obj [("maximum_targets", .int p.maximumTargets), ("canary_size", .int p.canarySize),
    ("global_concurrency", .int p.globalConcurrency),
    ("per_agent_concurrency", .int p.perAgentConcurrency),
    ("per_bench_concurrency", .int p.perBenchConcurrency),
    ("maximum_failures", .int p.maximumFailures),
    ("maximum_failure_ratio", .float (.finite p.maximumFailureRatio))]

/-- The value `canonical_bulk_hash` encodes. -/
def planJson (p : PlanFields) : Json :=
  .obj [("version", .int 1), ("parent_operation_id", .str p.parentOperationId),
    ("operation_type", .str p.operationType), ("payload_hash", .str p.payloadHash),
    ("dry_run_hash", .str p.dryRunHash), ("retry_of", Json.ofOption p.retryOf),
    ("selector", selectorJson p.selector.toSelectorFields),
    ("targets", .arr (p.targets.map fun t => targetJson t.toTargetFields)),
    ("policy", policyJson p.policy.toPolicyFields)]

/-- `canonical_bulk_hash`, which is `BulkPlan.snapshot_hash`. -/
def canonicalBulkHash (R : Runtime) (p : BulkPlan) : String :=
  R.sha256 (R.dumps (planJson p.toPlanFields))

/-! ## Aggregates and the failure budget -/

/-- The buckets of `aggregate_child_states`. -/
inductive Bucket where
  | planned | queued | running | succeeded | failed | cancelled | needsIntervention
  deriving DecidableEq, Repr

/-- The bucket a state counts in. Every state of the schema has one. -/
def bucket : BulkTargetState → Bucket
  | .planned | .child .awaitingApproval => .planned
  | .child .queued => .queued
  | .child .leased | .child .running => .running
  | .child .succeeded => .succeeded
  | .child .failed | .child .timedOut | .child .deadLetter | .child .rejected => .failed
  | .child .cancelled => .cancelled
  | .child .needsIntervention => .needsIntervention

structure BulkAggregate where
  total : ℕ
  planned : ℕ
  queued : ℕ
  running : ℕ
  succeeded : ℕ
  failed : ℕ
  cancelled : ℕ
  needsIntervention : ℕ
  partition :
    planned + queued + running + succeeded + failed + cancelled + needsIntervention = total

/-- How many of the states are in the bucket. -/
def bucketCount (b : Bucket) (states : List BulkTargetState) : ℕ :=
  states.countP fun state => bucket state == b

theorem bucketCount_cons (b : Bucket) (state : BulkTargetState) (states : List BulkTargetState) :
    bucketCount b (state :: states) = bucketCount b states + if bucket state = b then 1 else 0 := by
  simp [bucketCount, List.countP_cons]

/-- Every state is in exactly one bucket. -/
theorem bucketCount_sum (states : List BulkTargetState) :
    bucketCount .planned states + bucketCount .queued states + bucketCount .running states
      + bucketCount .succeeded states + bucketCount .failed states + bucketCount .cancelled states
      + bucketCount .needsIntervention states = states.length := by
  induction states with
  | nil => rfl
  | cons state states ih =>
    simp only [bucketCount_cons, List.length_cons]
    cases bucket state <;> simp <;> omega

/-- `aggregate_child_states` -/
def aggregateChildStates (states : List BulkTargetState) : BulkAggregate where
  total := states.length
  planned := bucketCount .planned states
  queued := bucketCount .queued states
  running := bucketCount .running states
  succeeded := bucketCount .succeeded states
  failed := bucketCount .failed states
  cancelled := bucketCount .cancelled states
  needsIntervention := bucketCount .needsIntervention states
  partition := bucketCount_sum states

/-- The binary64 number nearest to a positive rational, ties to even. -/
def nearestFloat (q : ℚ) : ℚ :=
  let ulp : ℚ := 2 ^ (Int.log 2 q - 52)
  let mantissa := ⌊q / ulp⌋
  let rest := q / ulp - mantissa
  if rest < 1 / 2 ∨ (rest = 1 / 2 ∧ mantissa % 2 = 0) then mantissa * ulp
  else (mantissa + 1) * ulp

/-- `failures / terminal if terminal else 0.0` -/
def ratio (failures terminal : ℕ) : ℚ :=
  if failures = 0 ∨ terminal = 0 then 0 else nearestFloat (failures / terminal)

/-- `failure_budget_exhausted` -/
def failureBudgetExhausted (states : List BulkTargetState) (policy : BulkExecutionPolicy) : Bool :=
  let failures := states.countP failureState
  let terminal := states.countP BulkTargetState.terminal
  let countExhausted :=
    0 < failures && (policy.maximumFailures == 0 || policy.maximumFailures ≤ failures)
  let ratioExhausted := 0 < failures && policy.maximumFailureRatio ≤ ratio failures terminal
  countExhausted || ratioExhausted

end Bulk
end FrappeController
