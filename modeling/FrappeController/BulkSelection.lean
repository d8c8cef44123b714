import FrappeController.Bulk
import FrappeController.Library.Keyed
import Mathlib.Data.Finset.Basic

/-!
# `bulk_selection.py`: a selector resolved into target snapshots

`resolve` checks every candidate the repository returned against the selector, sorts the snapshots
by their target key and numbers them.
-/

namespace FrappeController
namespace Bulk

/-- A candidate of the repository; a `frozenset` is a finite set. -/
structure SelectableSite where
  serverAgent : String
  agentId : String
  bench : String
  benchId : String
  managedSite : String
  siteId : String
  siteDomain : String
  environment : String
  inventoryRevision : String
  labels : Finset String
  capabilities : Finset String
  agentEnabled : Bool := true
  benchEnabled : Bool := true
  siteEnabled : Bool := true
  deriving DecidableEq

/-- The snapshot of a candidate. -/
def SelectableSite.target (site : SelectableSite) (ordinal : ℕ) : TargetFields where
  ordinal := ordinal
  agentId := site.agentId
  benchId := site.benchId
  siteId := site.siteId
  siteDomain := site.siteDomain
  environment := site.environment
  inventoryRevision := site.inventoryRevision

structure ResolvedBulkSelection where
  selector : BulkSelector
  targets : List BulkTargetSnapshot
  environmentCounts : List (String × ℕ)
  selectedSites : List SelectableSite
  deriving DecidableEq

/-- `BulkSelectionService`, without its repository. -/
structure BulkSelectionService where
  systemMaximum : ℤ
  valid : 1 ≤ systemMaximum ∧ systemMaximum ≤ 1000

section Candidates

variable (selector : BulkSelector) (operationType : String)

/-- The checks of one candidate, `seen` the site ids before it. -/
def checkCandidate (seen : List String) (row : SelectableSite) : Except Exc Unit := do
  ensure (!seen.contains row.siteId) (.bulkContract "bulk repository returned duplicate sites")
  ensure (row.agentEnabled && row.benchEnabled && row.siteEnabled)
    (.bulkContract "bulk target is disabled")
  ensure (decide (operationType ∈ row.capabilities))
    (.bulkContract "bulk target lacks required capability")
  ensure (selector.exactSiteIds.isEmpty || selector.exactSiteIds.contains row.siteId)
    (.bulkContract "bulk target escapes exact-site selector")
  ensure (!truthy selector.environment || selector.environment == some row.environment)
    (.bulkContract "bulk target escapes environment selector")
  ensure (selector.agentIds.isEmpty || selector.agentIds.contains row.agentId)
    (.bulkContract "bulk target escapes agent selector")
  ensure (selector.benchIds.isEmpty || selector.benchIds.contains row.benchId)
    (.bulkContract "bulk target escapes bench selector")
  ensure (selector.labels.all fun label => decide (label ∈ row.labels))
    (.bulkContract "bulk target escapes label selector")

/-- The loop over the candidates: `by_site` before and after it. -/
def bySite : List (String × SelectableSite) → List SelectableSite →
    Except Exc (List (String × SelectableSite))
  | seen, [] => .ok seen
  | seen, row :: rest => do
    checkCandidate selector operationType (seen.map Prod.fst) row
    bySite (seen ++ [(row.siteId, row)]) rest

end Candidates

/-- `set(a) != set(b)` -/
def sameIds (a b : List String) : Bool := a.all b.contains && b.all a.contains

/-- The snapshots again, each with its place. -/
def number (ordered : List BulkTargetSnapshot) : Except Exc (List BulkTargetSnapshot) :=
  ordered.zipIdx.mapM fun entry =>
    TargetFields.new { entry.1.toTargetFields with ordinal := entry.2 }

/-- `by_site[site_id]` -/
def siteAt (sites : List (String × SelectableSite)) (siteId : String) :
    Except Exc SelectableSite :=
  match sites.lookup siteId with
  | some site => .ok site
  | none => .error (.python "KeyError")

/-- The environments of the candidates. -/
def environmentsOf (rows : List SelectableSite) : List String :=
  (rows.map (·.environment)).dedup

/-- How many candidates each environment has. -/
def environmentCounts (rows : List SelectableSite) : List (String × ℕ) :=
  (Inventory.sortTexts (environmentsOf rows)).map fun environment =>
    (environment, (rows.map (·.environment)).count environment)

/-- `BulkSelectionService.resolve`, on the candidates the repository returned. -/
def resolve (service : BulkSelectionService) (selector : BulkSelector) (operationType : String)
    (policyMaximum : ℤ) (allowMixedEnvironments : Bool) (rows : List SelectableSite) :
    Except Exc ResolvedBulkSelection := do
  ensure (1 ≤ policyMaximum && policyMaximum ≤ service.systemMaximum)
    (.bulkContract "invalid bulk policy maximum")
  ensure (!rows.isEmpty) (.bulkContract "bulk selector resolved no targets")
  ensure (rows.length ≤ policyMaximum && rows.length ≤ service.systemMaximum)
    (.bulkContract "bulk target count exceeds policy")
  let sites ← bySite selector operationType [] rows
  ensure (selector.exactSiteIds.isEmpty || sameIds (sites.map Prod.fst) selector.exactSiteIds)
    (.bulkContract "one or more exact sites are unknown or disabled")
  ensure (!(selector.environment == some "staging" && (environmentsOf rows).contains "production"))
    (.bulkContract "staging selector included production")
  ensure ((environmentsOf rows).length ≤ 1 || allowMixedEnvironments)
    (.bulkContract "mixed-environment bulk selection is not authorized")
  let provisional ← rows.mapM fun row => (row.target 0).new
  let targets ← number (Keyed.sortOn BulkTargetSnapshot.targetKey provisional)
  let selectedSites ← targets.mapM fun target => siteAt sites target.siteId
  return { selector, targets, environmentCounts := environmentCounts rows, selectedSites }

end Bulk

end FrappeController
