import FrappeController.Ingestion
import Mathlib.Data.List.Sort
import Mathlib.Data.String.Basic

/-!
# `inventory.py`: heartbeat states and inventory snapshots

`parse_heartbeat_state` reads a reported state, `canonical_json` writes the snapshot it holds,
and `InventoryReconciliationService.reconcile` hands both to a repository
(`InventoryRepository`), as in the source.
-/

namespace FrappeController

/-! ## Values -/

structure SiteSnapshot where
  domain : String
  apps : List (String × String)
  schedulerEnabled : Option Bool
  maintenanceMode : Option Bool
  databaseName : String
  deriving DecidableEq, Repr

structure BenchSnapshot where
  benchId : String
  versions : List (String × String)
  capabilities : List String
  sites : List SiteSnapshot
  requiredApps : Option (List String)
  deriving DecidableEq, Repr

structure InventorySnapshot where
  schemaVersion : ℤ
  inventoryVersion : String
  benches : List BenchSnapshot
  deriving DecidableEq, Repr

structure HeartbeatInventory where
  status : ReportedStatus
  version : String
  inventoryDigest : String
  inventory : InventorySnapshot
  deriving DecidableEq, Repr

structure StoredInventory where
  digest : String
  benches : List BenchSnapshot
  revision : ℕ

structure InventoryDelta where
  previousDigest : Option String
  currentDigest : String
  revision : ℕ
  addedBenches : List String
  removedBenches : List String
  changedBenches : List String
  addedSites : List (String × String)
  removedSites : List (String × String)
  changedSites : List (String × String)

namespace Inventory

/-! ## Snapshots as text -/

/-- `\uXXXX` -/
def unicodeEscape (n : ℕ) : Text := '\\' :: 'u' :: (hexByte (n / 256) ++ hexByte (n % 256))

/-- What `ensure_ascii` writes for a character: itself, or the escapes of its UTF-16 units. -/
def asciiEscape (c : Char) : Text :=
  let n := c.toNat
  if n < 127 then [c]
  else if n < 0x10000 then unicodeEscape n
  else
    unicodeEscape (0xD800 + (n - 0x10000) / 0x400)
      ++ unicodeEscape (0xDC00 + (n - 0x10000) % 0x400)

/-- `json.dumps(value, sort_keys=True, separators=(",", ":"))` -/
def dumpsAscii (R : Runtime) (value : Json) : Text := (R.dumps value).flatMap asciiEscape

def pairJson (pair : String × String) : Json := .arr [.str pair.1, .str pair.2]

def optionalBool : Option Bool → Json
  | none => .null
  | some b => .bool b

def texts (items : List String) : Json := .arr (items.map .str)

def siteJson (site : SiteSnapshot) : Json :=
  .obj [("domain", .str site.domain), ("apps", .arr (site.apps.map pairJson)),
    ("scheduler_enabled", optionalBool site.schedulerEnabled),
    ("maintenance_mode", optionalBool site.maintenanceMode),
    ("database_name", .str site.databaseName)]

def benchJson (bench : BenchSnapshot) : Json :=
  .obj ([("bench_id", .str bench.benchId), ("versions", .arr (bench.versions.map pairJson)),
    ("capabilities", texts bench.capabilities), ("sites", .arr (bench.sites.map siteJson))]
    -- an absent `required_apps` is deleted, not written as null
    ++ (match bench.requiredApps with
      | none => []
      | some apps => [("required_apps", texts apps)]))

/-- `asdict(self)` -/
def snapshotJson (snapshot : InventorySnapshot) : Json :=
  .obj [("schema_version", .int snapshot.schemaVersion),
    ("inventory_version", .str snapshot.inventoryVersion),
    ("benches", .arr (snapshot.benches.map benchJson))]

variable (R : Runtime)

/-- `InventorySnapshot.canonical_json` -/
def canonicalJson (snapshot : InventorySnapshot) : Text := dumpsAscii R (snapshotJson snapshot)

/-- `InventorySnapshot.digest` -/
def digest (snapshot : InventorySnapshot) : String := R.sha256 (canonicalJson R snapshot)

/-! ## Names -/

/-- `[a-z0-9](?:[a-z0-9-]{0,61}[a-z0-9])?` -/
def isLabel (label : List Char) : Bool :=
  let alphanumeric (c : Char) := Ingestion.isLower c || Ingestion.isDigit c
  label.head?.any alphanumeric && label.getLast?.any alphanumeric
    && label.all (fun c => alphanumeric c || c == '-') && label.length ≤ 63

/-- `_DOMAIN` -/
def isDomain (domain : String) : Bool :=
  let labels := domain.toList.splitOn '.'
  domain.toList.length ≤ 253 && 2 ≤ labels.length && labels.all isLabel

/-- `_BENCH` -/
def isBench : String → Bool :=
  Ingestion.identifier Ingestion.isLower
    (fun c => Ingestion.isLower c || Ingestion.isDigit c || c == '-') 64

/-- `_DATABASE` -/
def isDatabase : String → Bool :=
  let allowed (c : Char) := Ingestion.isLower c || Ingestion.isDigit c || c == '_' || c == '-'
  Ingestion.identifier allowed allowed 64

/-- `[a-z][a-z0-9_]*` -/
def isWord (word : List Char) : Bool :=
  word.head?.any Ingestion.isLower
    && word.all fun c => Ingestion.isLower c || Ingestion.isDigit c || c == '_'

/-- `_CAPABILITY` -/
def isCapability (capability : String) : Bool :=
  let words := capability.toList.splitOn '.'
  2 ≤ words.length && words.all isWord

/-- `[a-z][a-z0-9_]{0,63}` -/
def isAppName (app : String) : Bool := isWord app.toList && app.toList.length ≤ 64

/-- `sorted(texts)` -/
def sortTexts (items : List String) : List String := items.insertionSort (· ≤ ·)

/-- The order of two pairs of texts, as tuples. -/
def pairBefore (a b : String × String) : Bool := a.1 < b.1 || (a.1 == b.1 && a.2 ≤ b.2)

/-- `sorted(pairs)` -/
def sortPairs (items : List (String × String)) : List (String × String) :=
  items.insertionSort fun a b => pairBefore a b

/-! ## Field checks -/

/-- `_obj` -/
def obj (value : Json) (name : String) : Except Exc (List (String × Json)) :=
  match value with
  | .obj fields => .ok fields
  | _ => .error (.inventorySchema (name ++ " must be an object"))

/-- `_exact` -/
def exact (value : List (String × Json)) (fields : List String) (name : String) :
    Except Exc Unit :=
  ensure (Ingestion.sameKeys value fields)
    (.inventorySchema (name ++ " fields do not match protocol v1"))

/-- What `_text` accepts. -/
def isText (chars : List Char) (limit : ℕ) : Bool :=
  !chars.isEmpty && isStripped chars && !chars.contains (Char.ofNat 0) && !chars.contains '\n'
    && utf8Length chars ≤ limit

/-- `_text` -/
def text (value : Json) (name : String) (limit : ℕ) : Except Exc String :=
  match value with
  | .str s =>
    if isText s.toList limit then .ok s else .error (.inventorySchema (name ++ " is invalid"))
  | _ => .error (.inventorySchema (name ++ " is invalid"))

/-- `_array` -/
def array (value : Json) (name : String) (limit : ℕ) : Except Exc (List Json) :=
  match value with
  | .arr items =>
    if items.length ≤ limit then .ok items
    else .error (.inventorySchema (name ++ " must be a bounded array"))
  | _ => .error (.inventorySchema (name ++ " must be a bounded array"))

/-- The items of an array, each parsed with its index, until one of them raises. -/
def parseItems {α : Type} (parse : ℕ → Json → Except Exc α) :
    ℕ → List Json → Except Exc (List α)
  | _, [] => .ok []
  | index, item :: rest => do
    let parsed ← parse index item
    let others ← parseItems parse (index + 1) rest
    return parsed :: others

/-- One entry of `_pairs`. -/
def pair (name : String) (index : ℕ) (value : Json) : Except Exc (String × String) := do
  match ← array value (name ++ "[" ++ toString index ++ "]") 2 with
  | [first, second] => return (← text first name 128, ← text second name 256)
  | _ => .error (.inventorySchema (name ++ " entries require two values"))

/-- `_pairs` -/
def pairs (value : Json) (name : String) (limit : ℕ) : Except Exc (List (String × String)) := do
  let result ← parseItems (pair name) 0 (← array value name limit)
  ensure (result == sortPairs result && (result.map Prod.fst).Nodup)
    (.inventorySchema (name ++ " must be sorted and unique"))
  return result

/-- The texts of an array. -/
def textItems (value : Json) (arrayName name : String) (limit textLimit : ℕ) :
    Except Exc (List String) := do
  parseItems (fun _ item => text item name textLimit) 0 (← array value arrayName limit)

/-- A boolean, or `None`. -/
def flag (value : Json) (message : String) : Except Exc (Option Bool) :=
  match value with
  | .null => .ok none
  | .bool b => .ok (some b)
  | _ => .error (.inventorySchema message)

/-! ## Heartbeat states -/

/-- `_parse_site` -/
def parseSite (parent : String) (index : ℕ) (value : Json) : Except Exc SiteSnapshot := do
  let name := parent ++ ".sites[" ++ toString index ++ "]"
  let raw ← obj value name
  exact raw ["domain", "apps", "scheduler_enabled", "maintenance_mode", "database_name"] name
  let domain ← text (Json.get raw "domain") "domain" 253
  ensure (domain == R.lower domain && isDomain domain)
    (.inventorySchema "invalid canonical domain")
  let databaseName ← text (Json.get raw "database_name") "database_name" 64
  ensure (isDatabase databaseName) (.inventorySchema "invalid database_name")
  let schedulerEnabled ← flag (Json.get raw "scheduler_enabled") "invalid scheduler state"
  let maintenanceMode ← flag (Json.get raw "maintenance_mode") "invalid maintenance state"
  let apps ← pairs (Json.get raw "apps") "apps" 256
  return { domain, apps, schedulerEnabled, maintenanceMode, databaseName }

/-- `"required_apps" in raw` -/
def hasRequiredApps (raw : List (String × Json)) : Bool :=
  (Json.keys raw).contains "required_apps"

/-- What a reported list of required apps must be. -/
def validRequiredApps (apps : List String) : Bool :=
  apps.contains "frappe" && apps.Nodup && apps.all isAppName

/-- The required apps of a bench, if it reports them. -/
def requiredApps (raw : List (String × Json)) : Except Exc (Option (List String)) :=
  if hasRequiredApps raw then do
    let apps ← textItems (Json.get raw "required_apps") "required_apps" "required_app" 128 64
    ensure (validRequiredApps apps)
      (.inventorySchema "required_apps must be unique app names including frappe")
    return some apps
  else .ok none

/-- `_parse_bench` -/
def parseBench (index : ℕ) (value : Json) : Except Exc BenchSnapshot := do
  let name := "benches[" ++ toString index ++ "]"
  let raw ← obj value name
  exact raw (["bench_id", "versions", "capabilities", "sites"]
    ++ (if hasRequiredApps raw then ["required_apps"] else [])) name
  let benchId ← text (Json.get raw "bench_id") (name ++ ".bench_id") 64
  ensure (isBench benchId) (.inventorySchema "invalid bench_id")
  let capabilities ← textItems (Json.get raw "capabilities") "capabilities" "capability" 128 128
  ensure (capabilities == sortTexts capabilities && capabilities.Nodup
      && capabilities.all isCapability)
    (.inventorySchema "capabilities must be sorted typed names")
  let sites ← parseItems (parseSite R name) 0 (← array (Json.get raw "sites") "sites" 10000)
  let domains := sites.map (·.domain)
  ensure (domains == sortTexts domains && domains.Nodup)
    (.inventorySchema "sites must be sorted and unique")
  let requiredApps ← requiredApps raw
  let versions ← pairs (Json.get raw "versions") "versions" 128
  return { benchId, versions, capabilities, sites, requiredApps }

/-- `[site.domain for bench in benches for site in bench.sites]` -/
def domains (benches : List BenchSnapshot) : List String :=
  benches.flatMap fun bench => bench.sites.map (·.domain)

/-- `_parse_inventory` -/
def parseInventory (value : Json) : Except Exc InventorySnapshot := do
  let raw ← obj value "inventory"
  exact raw ["schema_version", "inventory_version", "benches"] "inventory"
  match Json.get raw "schema_version", Json.get raw "inventory_version" with
  | .int 1, .str "1.0" =>
    let benches ← parseItems (parseBench R) 0 (← array (Json.get raw "benches") "benches" 256)
    let ids := benches.map (·.benchId)
    ensure (ids == sortTexts ids && ids.Nodup)
      (.inventorySchema "benches must be sorted and unique")
    ensure (domains benches).Nodup (.inventorySchema "duplicate site ownership")
    ensure ((domains benches).length ≤ 10000) (.inventorySchema "too many sites")
    return { schemaVersion := 1, inventoryVersion := "1.0", benches }
  | .int 1, _ => .error (.inventorySchema "inventory_version must be 1.0")
  | _, _ => .error (.inventorySchema "schema_version must be 1")

/-- `_STATUSES`, each with the text that names it. -/
def statuses : List (String × ReportedStatus) :=
  [("ready", .ready), ("degraded", .degraded), ("error", .error), ("maintenance", .maintenance)]

/-- `parse_heartbeat_state` -/
def parseHeartbeatState (value : Json) : Except Exc HeartbeatInventory := do
  let raw ← obj value "state"
  exact raw ["status", "version", "inventory_digest", "inventory"] "state"
  match statuses.lookup (← text (Json.get raw "status") "state.status" 32) with
  | none => .error (.inventorySchema "unsupported status")
  | some status =>
    let version ← text (Json.get raw "version") "state.version" 64
    let inventoryDigest ← text (Json.get raw "inventory_digest") "inventory_digest" 64
    ensure (isSha256 inventoryDigest) (.inventorySchema "invalid inventory digest")
    let inventory ← parseInventory R (Json.get raw "inventory")
    ensure (digest R inventory == inventoryDigest) (.inventorySchema "inventory digest mismatch")
    return { status, version, inventoryDigest, inventory }

/-! ## Reconciliation -/

/-- The keys of a list of pairs that another list lacks, sorted. -/
def missingFrom {κ α : Type} [BEq κ] (sort : List κ → List κ) (items others : List (κ × α)) :
    List κ :=
  sort ((items.map Prod.fst).filter fun key => !(others.map Prod.fst).contains key)

/-- The keys two lists of pairs share with different values, sorted. -/
def changedIn {κ α : Type} [BEq κ] [DecidableEq α] (sort : List κ → List κ)
    (old new : List (κ × α)) : List κ :=
  sort ((new.map Prod.fst).filter fun key =>
    (old.lookup key).isSome && decide (old.lookup key ≠ new.lookup key))

/-- `_delta` -/
def delta (previous : Option StoredInventory) (current : InventorySnapshot)
    (revision : ℕ) : InventoryDelta :=
  let benches (benches : List BenchSnapshot) := benches.map fun bench => (bench.benchId, bench)
  let sites (benches : List BenchSnapshot) := benches.flatMap fun bench =>
    bench.sites.map fun site => ((bench.benchId, site.domain), site)
  let old := (previous.map (·.benches)).getD []
  let new := current.benches
  { previousDigest := previous.map (·.digest), currentDigest := digest R current, revision
    addedBenches := missingFrom sortTexts (benches new) (benches old)
    removedBenches := missingFrom sortTexts (benches old) (benches new)
    changedBenches := changedIn sortTexts (benches old) (benches new)
    addedSites := missingFrom sortPairs (sites new) (sites old)
    removedSites := missingFrom sortPairs (sites old) (sites new)
    changedSites := changedIn sortPairs (sites old) (sites new) }

/-- `_AGENT` -/
def isAgent : String → Bool :=
  let alphanumeric (c : Char) := Ingestion.isUpper c || Ingestion.isLower c || Ingestion.isDigit c
  Ingestion.identifier alphanumeric
    (fun c => alphanumeric c || c == '.' || c == '_' || c == '-') 128

end Inventory

/-- `InventoryRepository` -/
structure InventoryRepository (σ : Type) where
  currentInventory : String → EStateM Exc σ (Option StoredInventory)
  benchOwner : String → EStateM Exc σ (Option String)
  siteOwner : String → EStateM Exc σ (Option (String × String))
  replaceInventory : (agentId : String) → HeartbeatInventory → (previousDigest : Option String) →
    (revision : ℕ) → (observedAt : DateTime) → EStateM Exc σ Unit

namespace Inventory

variable {σ : Type} (repository : InventoryRepository σ)

/-- Raise unless the bench is free or the agent's own. -/
def checkBenchOwner (agentId benchId : String) : EStateM Exc σ Unit := do
  let owner ← repository.benchOwner benchId
  if owner.isSome && owner != some agentId then
    throw (.inventoryOwnership "bench owned by another agent")

/-- Raise unless the site is free or the agent's own, on that bench. -/
def checkSiteOwner (agentId benchId domain : String) : EStateM Exc σ Unit := do
  let owner ← repository.siteOwner domain
  if owner.isSome && owner != some (agentId, benchId) then
    throw (.inventoryOwnership "site owned by another agent or bench")

/-- `InventoryReconciliationService.reconcile` -/
def reconcile (R : Runtime) (agentId : String) (state : Json) (observedAt : DateTime) :
    EStateM Exc σ InventoryDelta := do
  let agentId ← Transaction.query fun _ => text (.str agentId) "agent_id" 128
  let _ ← Transaction.query fun _ =>
    ensure (isAgent agentId) (.inventorySchema "invalid agent_id")
  let heartbeat ← Transaction.query fun _ => parseHeartbeatState R state
  let previous ← repository.currentInventory agentId
  Transaction.forEach (fun bench => do
    checkBenchOwner repository agentId bench.benchId
    Transaction.forEach (fun site => checkSiteOwner repository agentId bench.benchId site.domain)
      bench.sites) heartbeat.inventory.benches
  let revision := match previous with
    | none => 1
    | some previous => previous.revision + 1
  repository.replaceInventory agentId heartbeat (previous.map (·.digest)) revision observedAt
  return delta R previous heartbeat.inventory revision

end Inventory

end FrappeController
