import FrappeController.Inventory

/-!
# `frappe_repository.py`: the inventory repository over the tables

A heartbeat is one transaction. Its plain reads see the version that was committed when it
began, with its own writes (`Session.view`); the locking read of its agent, its writes and the
unique indexes work on the committed rows (`Session.current`).
-/

namespace FrappeController
namespace FrappeInventory

open Inventory

/-! ## Transactions -/

structure Session where
  view : Database
  current : Database

/-- A plain read. -/
def read {α : Type} (f : Database → Except Exc α) : EStateM Exc Session α :=
  Transaction.query fun session => f session.view

/-- A read `FOR UPDATE`. -/
def readForUpdate {α : Type} (f : Database → Except Exc α) : EStateM Exc Session α :=
  Transaction.query fun session => f session.current

/-- A write, which the later reads of the transaction see. -/
def write (f : Database → Database) : EStateM Exc Session Unit :=
  modify fun session => { view := f session.view, current := f session.current }

variable (R : Runtime)

/-! ## Reads -/

/-- `_agent` -/
def agent? (db : Database) (agentId : String) : Option ServerAgent :=
  db.agents.find? fun a => a.agentId == agentId

/-- `_load_snapshot` -/
def loadSnapshot (encoded : Text) (digest : String) : Except Exc StoredInventory :=
  match R.loads encoded with
  | none => .error (.python "stored inventory snapshot is not JSON")
  | some raw => do
    let heartbeat ← parseHeartbeatState R (.obj [("status", .str "ready"),
      ("version", .str "stored"), ("inventory_digest", .str digest), ("inventory", raw)])
    return { digest, benches := heartbeat.inventory.benches, revision := 0 }

/-- The inventory an agent row stores. -/
def storedInventory (agent : ServerAgent) : Except Exc (Option StoredInventory) :=
  match orNone agent.inventoryDigest, agent.inventorySnapshotJson.filter (· ≠ []) with
  | some digest, some encoded => do
    let stored ← loadSnapshot R encoded digest
    return some { stored with revision := agent.inventoryRevision }
  | _, _ => .ok none

/-- `current_inventory` -/
def currentInventory (db : Database) (agentId : String) : Except Exc (Option StoredInventory) :=
  match agent? db agentId with
  | none => .ok none
  | some agent => storedInventory R agent

/-- `bench_owner` -/
def benchOwner (db : Database) (benchId : String) : Option String := do
  let bench ← db.benches.find? fun b => b.benchId == benchId
  let agent ← Table.get? db.agents bench.serverAgent
  return agent.agentId

/-- `site_owner` -/
def siteOwner (db : Database) (domain : String) : Option (String × String) := do
  let site ← db.sites.find? fun s => s.domain == domain
  let agent ← Table.get? db.agents site.serverAgent
  let bench ← Table.get? db.benches site.bench
  return (agent.agentId, bench.benchId)

/-! ## Rows -/

/-- `Bench.validate` of a new row. -/
def validateBench (db : Database) (bench : Bench) : Except Exc Unit := do
  let _ ← requireJsonList R bench.installedAppsJson "installed_apps_json"
  let _ ← requireJsonList R bench.capabilitiesJson "capabilities_json"
  ensure (Table.get? db.agents bench.serverAgent).isSome
    (.validation "Unknown owning Server Agent")

/-- The domains `ManagedSite.validate` accepts: a top-level label is alphabetic. -/
def isFqdn (domain : String) : Bool :=
  let labels := domain.toList.splitOn '.'
  let top := labels.getLast?.getD []
  domain.toList.length ≤ 253 && 2 ≤ labels.length && labels.dropLast.all isLabel
    && top.all Ingestion.isLower && 2 ≤ top.length && top.length ≤ 63

/-- `[A-Za-z0-9][A-Za-z0-9._:-]{0,63}` -/
def isSiteLabel : String → Bool :=
  let alphanumeric (c : Char) := Ingestion.isUpper c || Ingestion.isLower c || Ingestion.isDigit c
  Ingestion.identifier alphanumeric
    (fun c => alphanumeric c || c == '.' || c == '_' || c == ':' || c == '-') 64

/-- What a list of labels must be. -/
def validLabels (items : List Json) : Bool :=
  match items.mapM Json.str? with
  | none => false
  | some labels =>
    labels.length ≤ 32 && labels.all isSiteLabel && labels.Nodup && labels == sortTexts labels

/-- `domain.lower().rstrip(".")` -/
def normalizedDomain (domain : String) : String :=
  String.ofList (((R.lower domain).toList.reverse.dropWhile (· == '.')).reverse)

/-- `ManagedSite.validate` of a new row. -/
def validateSite (db : Database) (site : ManagedSite) : Except Exc Unit := do
  ensure (normalizedDomain R site.domain == site.domain && isFqdn site.domain)
    (.validation "Domain must be a normalized FQDN")
  let _ ← requireJsonList R site.installedAppsJson "installed_apps_json"
  let labels ← requireJsonList R site.labelsJson "labels_json"
  ensure (validLabels labels)
    (.validation "Controller labels must be sorted, unique, and bounded")
  requireLinkValue db.benches (some site.bench) (·.serverAgent) site.serverAgent

/-- The check of `_validate_length` on a Data column: 140 characters where the field has no length
of its own. -/
def checkLength (field value : String) : Except Exc Unit :=
  ensure (value.length ≤ 140) (.characterLengthExceeded field)

/-- `_validate_length` of a Managed Site. -/
def checkLengths (site : ManagedSite) : Except Exc Unit := do
  checkLength "site_id" site.siteId
  checkLength "domain" site.domain
  checkLength "database_name" (site.databaseName.getD "")

/-- `insert` of a new Bench: its name and its bench id are unique. The texts of a reported bench
fit their columns. -/
def insertBench (bench : Bench) : EStateM Exc Session Unit := do
  read fun db => validateBench R db bench
  readForUpdate fun db =>
    ensure (!db.benches.any fun b => b.name == bench.name || b.benchId == bench.benchId)
      (.duplicateEntry ("Bench " ++ bench.name))
  write fun db => { db with benches := db.benches ++ [bench] }

/-- `insert` of a new Managed Site: its name, its site id and its domain are unique. -/
def insertSite (site : ManagedSite) : EStateM Exc Session Unit := do
  read fun db => validateSite R db site
  read fun _ => checkLengths site
  readForUpdate fun db =>
    ensure (!db.sites.any fun s =>
        s.name == site.name || s.siteId == site.siteId || s.domain == site.domain)
      (.duplicateEntry ("Managed Site " ++ site.name))
  write fun db => { db with sites := db.sites ++ [site] }

/-! ## Replacing an inventory -/

/-- `"healthy" if heartbeat.status == "ready" else "degraded"` -/
def health (status : ReportedStatus) : HealthStatus :=
  if status = .ready then .healthy else .degraded

/-- `_json(list(pairs))` -/
def pairsText (pairs : List (String × String)) : Text := R.dumps (.arr (pairs.map pairJson))

/-- `_json(list(texts))` -/
def textsText (items : List String) : Text := R.dumps (texts items)

section Rows

variable (agent : ServerAgent) (status : ReportedStatus) (observedAt : DateTime)

/-- The columns a reported bench writes. -/
def reportBench (bench : BenchSnapshot) (row : Bench) : Bench :=
  { row with
    serverAgent := agent.name, displayName := bench.benchId, environment := agent.environment
    enabled := true, frappeVersion := bench.versions.lookup "frappe"
    erpnextVersion := bench.versions.lookup "erpnext"
    installedAppsJson := some (pairsText R bench.versions)
    requiredAppsJson := some (match bench.requiredApps with
      | none => "[]".toList
      | some apps => textsText R apps)
    capabilitiesJson := some (textsText R bench.capabilities), healthStatus := health status
    inventoryUpdatedAt := some observedAt }

/-- A new Bench, before the reported columns. -/
def newBench (benchId : String) : Bench where
  name := benchId
  benchId := benchId
  serverAgent := ""
  requiredAppsJson := none

/-- The columns a reported site writes. -/
def reportSite (benchId : String) (site : SiteSnapshot) (row : ManagedSite) : ManagedSite :=
  { row with
    domain := site.domain, serverAgent := agent.name, bench := benchId
    environment := agent.environment
    status := if site.maintenanceMode = some true then .maintenance else .active
    installedAppsJson := some (pairsText R site.apps), databaseName := some site.databaseName
    schedulerEnabled := site.schedulerEnabled.getD false
    maintenanceMode := site.maintenanceMode.getD false, healthStatus := health status
    inventoryUpdatedAt := some observedAt }

/-- A new Managed Site, before the reported columns. -/
def newSite (domain : String) : ManagedSite where
  name := domain
  siteId := domain
  domain := domain
  serverAgent := ""
  bench := ""
  environment := ""
  labelsJson := some "[]".toList

end Rows

/-- The columns of a bench that is no longer reported. -/
def removeBench (row : Bench) : Bench :=
  { row with enabled := false, healthStatus := .unreachable }

/-- The columns of a site that is no longer reported. -/
def removeSite (row : ManagedSite) : ManagedSite :=
  { row with status := .missing, healthStatus := .unreachable }

/-- The columns of the agent itself. -/
def reportAgent (heartbeat : HeartbeatInventory) (revision : ℕ) (observedAt : DateTime)
    (row : ServerAgent) : ServerAgent :=
  { row with
    status := .online, reportedStatus := some heartbeat.status
    agentVersion := some heartbeat.version
    capabilitiesJson := some (textsText R
      (sortTexts (heartbeat.inventory.benches.flatMap (·.capabilities)).dedup))
    lastSeen := some observedAt, inventoryUpdatedAt := some observedAt
    inventoryRevision := revision, inventoryDigest := some heartbeat.inventoryDigest
    inventorySnapshotJson := some (Inventory.canonicalJson R heartbeat.inventory) }

/-- `set_value`, `set_value`, ... over the rows of those names. -/
def setBenches (names : List String) (f : Bench → Bench) : EStateM Exc Session Unit :=
  Transaction.forEach (fun name => write fun db =>
    { db with benches := Table.setValue name f db.benches }) names

@[inherit_doc setBenches]
def setSites (names : List String) (f : ManagedSite → ManagedSite) : EStateM Exc Session Unit :=
  Transaction.forEach (fun name => write fun db =>
    { db with sites := Table.setValue name f db.sites }) names

section Upsert

variable (agent : ServerAgent) (status : ReportedStatus) (observedAt : DateTime)

/-- Update the row of a reported site, or insert it. -/
def upsertSite (benchId : String) (site : SiteSnapshot) : EStateM Exc Session Unit := do
  let exists' ← read fun db => .ok (Table.get? db.sites site.domain).isSome
  let report := reportSite R agent status observedAt benchId site
  if exists' then setSites [site.domain] report else insertSite R (report (newSite site.domain))

/-- Update the row of a reported bench, or insert it. -/
def upsertBenchRow (bench : BenchSnapshot) : EStateM Exc Session Unit := do
  let exists' ← read fun db => .ok (Table.get? db.benches bench.benchId).isSome
  let report := reportBench R agent status observedAt bench
  if exists' then setBenches [bench.benchId] report
  else insertBench R (report (newBench bench.benchId))

/-- A reported bench, and then its sites. -/
def upsertBench (bench : BenchSnapshot) : EStateM Exc Session Unit := do
  upsertBenchRow R agent status observedAt bench
  Transaction.forEach (upsertSite R agent status observedAt bench.benchId) bench.sites

end Upsert

/-- The agent row `replace_inventory` locks, if the compare-and-set succeeds on it. -/
def lockAgent (agentId : String) (previousDigest : Option String) (revision : ℕ)
    (db : Database) : Except Exc ServerAgent :=
  match agent? db agentId with
  | none => .error (.inventoryOwnership "unknown or disabled agent")
  | some agent => do
    ensure agent.enabled (.inventoryOwnership "unknown or disabled agent")
    ensure (orNone agent.inventoryDigest == previousDigest && agent.inventoryRevision + 1 == revision)
      (.inventoryConflict "inventory compare-and-set conflict")
    return agent

/-- The repository the heartbeat route reconciles with, before `replace_inventory`. -/
def owners : InventoryRepository Session where
  currentInventory := fun agentId => read fun db => currentInventory R db agentId
  benchOwner := fun benchId => read fun db => .ok (benchOwner db benchId)
  siteOwner := fun domain => read fun db => .ok (siteOwner db domain)
  replaceInventory := fun _ _ _ _ _ => pure ()

/-- `replace_inventory` -/
def replaceInventory (agentId : String) (heartbeat : HeartbeatInventory)
    (previousDigest : Option String) (revision : ℕ) (observedAt : DateTime) :
    EStateM Exc Session Unit := do
  let agent ← readForUpdate (lockAgent agentId previousDigest revision)
  let benches := heartbeat.inventory.benches
  let benchIds := benches.map (·.benchId)
  Transaction.forEach (fun bench => checkBenchOwner (owners R) agentId bench.benchId) benches
  Transaction.forEach (fun bench =>
    Transaction.forEach (fun site =>
      checkSiteOwner (owners R) agentId bench.benchId site.domain) bench.sites) benches
  let old ← read fun db => currentInventory R db agentId
  let oldBenches := (old.map (·.benches)).getD []
  setBenches (sortTexts ((oldBenches.map (·.benchId)).filter fun id => !benchIds.contains id))
    removeBench
  setSites (sortTexts ((domains oldBenches).filter fun domain =>
    !(domains benches).contains domain)) removeSite
  Transaction.forEach (upsertBench R agent heartbeat.status observedAt) benches
  write fun db => { db with
    agents := Table.setValue agent.name (reportAgent R heartbeat revision observedAt) db.agents }

/-- `FrappeInventoryRepository` -/
def repository : InventoryRepository Session :=
  { owners R with replaceInventory := replaceInventory R }

/-! ## Heartbeats -/

/-- `record_heartbeat` -/
def recordHeartbeat (state : Json) : Except Exc String := do
  validateJson R true true state
  let encoded ← FrappeController.canonicalJson R state
  ensure (utf8Length encoded ≤ 512 * 1024) (.controllerRequest "heartbeat_too_large")
  return R.sha256 encoded

/-- The part of a heartbeat request that follows its authentication. -/
def heartbeat (agentId : String) (state : Json) (observedAt : DateTime) :
    EStateM Exc Session InventoryDelta := do
  let _ ← Transaction.query fun _ => recordHeartbeat R state
  reconcile (repository R) R agentId state observedAt

/-- The answer to a heartbeat whose plain reads see `view`, and the version it leaves behind. -/
def serve (agentId : String) (state : Json) (observedAt : DateTime) (view db : Database) :
    Except Exc InventoryDelta × Database :=
  match heartbeat R agentId state observedAt { view, current := db } with
  | .ok delta session => (.ok delta, session.current)
  | .error e _ => (.error e, db)

end FrappeInventory

end FrappeController
