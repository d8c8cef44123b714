import FrappeController.FrappeRepository
import FrappeController.OperationAuthoring

/-!
# `api/customer_sites.py`: the site of a Customer

A Customer requests one site creation and is linked to the site once the operation has
succeeded and the inventory shows the site. Both lock the Customer's row first; the document is
then a plain read, and its save is refused if the row was saved since that snapshot.
-/

namespace FrappeController

/-- What the endpoints call besides the tables. -/
structure Services where
  /-- `validate_lifecycle_payload` -/
  validatePayload : OperationAuthoring.PayloadValidator
  /-- The failures `check_creation_readiness` finds for a domain, an agent and a bench. -/
  readinessFailures : Database → String → String → String → Option String
  /-- `_command_lifetime()` -/
  commandLifetime : ℕ

namespace CustomerSites

open FrappeInventory (Session read readForUpdate write)
open OperationDocuments OperationAuthoring

/-! ## Customers -/

/-- `_actor`, `_require_author` -/
def requireAuthor (db : Database) (actor : String) : Except Exc Unit :=
  ensure (actor != "" && actor != "Guest"
      && ((getRoles db actor).contains "Controller Admin" || (getRoles db actor).contains "Operator"))
    (.permission "Controller Admin or Operator role is required")

/-- A document as a plain read finds it. -/
def getDoc {ρ : Type} (doctype : String) (row? : Database → Option ρ) : EStateM Exc Session ρ :=
  read fun db => match row? db with
    | none => .error (.doesNotExist doctype)
    | some row => .ok row

/-- `_lock_customer` -/
def lockCustomer (customer : String) : EStateM Exc Session Customer := do
  readForUpdate fun db =>
    ensure (Table.get? db.customers customer).isSome (.doesNotExist "Customer does not exist")
  getDoc "Customer" fun db => Table.get? db.customers customer

/-- `customer_doc.save()` with the flag `controller_managed_site_update`. -/
def saveCustomer (now : DateTime) (document : Customer) : EStateM Exc Session Unit := do
  readForUpdate fun db =>
    match Table.get? db.customers document.name with
    | none => .error (.doesNotExist "Customer")
    | some row => ensure (row.modified == document.modified) (.timestampMismatch "Customer")
  write fun db => { db with
    customers := Table.setValue document.name (fun _ => { document with modified := now })
      db.customers }

/-- `_set_site_operation` -/
def setSiteOperation (now : DateTime) (document : Customer) (operationId : String) :
    EStateM Exc Session Unit :=
  saveCustomer now { document with siteCreationOperation := some operationId }

variable (R : Runtime)

/-! ## Reconciliation -/

/-- `creation_handover_ready` without expected apps. -/
def creationHandoverReported (resultJson : Option Text) (credentialReceivedAt : Option DateTime) :
    Bool :=
  let readiness :=
    (((resultJson.bind R.loads).getD .null).getField "result").getField "readiness"
  let isApp (s : String) : Bool :=
    Ingestion.identifier Ingestion.isLower
      (fun c => Ingestion.isLower c || Ingestion.isDigit c || c == '_') 64 s
  match readiness.getField "version", readiness.getField "apps_verified",
    readiness.getField "public_https_verified", readiness.getField "required_apps" with
  | .int 1, .bool true, .bool true, .arr apps =>
    let names := apps.filterMap Json.str?
    credentialReceivedAt.isSome && names.length == apps.length && names.all isApp
      && names.contains "frappe" && decide names.Nodup
  | _, _, _, _ => false

/-- `json.loads(payload_json).get("domain")` -/
def payloadDomain (payloadJson : Text) : Except Exc (Option String) :=
  match R.loads payloadJson with
  | some (.obj fields) => .ok (Json.get fields "domain").str?
  | some _ => .error (.python "AttributeError: 'get'")
  | none => .error (.python "JSONDecodeError")

/-- The site the inventory shows for a succeeded creation. -/
def createdSite? (db : Database) (operation : ControllerOperation) (domain : Option String) :
    Option ManagedSite :=
  (domain.bind fun domain => db.sites.find? fun s => s.domain == domain).filter fun site =>
    site.serverAgent == operation.serverAgent && site.bench == operation.bench
      && (site.status == .active || site.status == .maintenance) && site.inventoryUpdatedAt.isSome

/-- `reconcile_customer_site`; the answer is whether the Customer was linked. -/
def reconcileCustomerSite (customer : String) (now : DateTime) : EStateM Exc Session Bool := do
  let document ← lockCustomer customer
  match orNone document.managedSite, orNone document.siteCreationOperation with
  | none, some name => do
    let operation ← getDoc "Controller Operation" (·.operation? name)
    if operation.operationType ≠ "site.create_blank" ∨ operation.state ≠ .succeeded
        ∨ creationHandoverReported R operation.resultJson operation.credentialReceivedAt = false then
      return false
    else do
      let domain ← Transaction.query fun _ => payloadDomain R operation.payloadJson
      match ← read fun db => .ok (createdSite? db operation domain) with
      | none => return false
      | some site => do
        saveCustomer now { document with managedSite := some site.name }
        return true
  | _, _ => return false

/-! ## Requesting a site -/

/-- `except OperationAuthoringError as exc: frappe.throw(str(exc), frappe.ValidationError)` -/
def asValidation {α : Type} (m : EStateM Exc Session α) : EStateM Exc Session α := fun s =>
  match m s with
  | .error (.operationAuthoring message) t => .error (.validation message) t
  | result => result

/-- The readiness check of a blank site creation. -/
def checkBlankCreation (services : Services) (operationType serverAgent bench : String)
    (payload : List (String × Json)) (db : Database) : Except Exc Unit :=
  if operationType ≠ "site.create_blank" then .ok ()
  else do
    let normalized := (← services.validatePayload operationType payload).normalizedPayload
    let domain := ((Json.get normalized "domain").str?).getD ""
    match services.readinessFailures db domain serverAgent bench with
    | none => return ()
    | some failures => .error (.validation ("Site creation readiness failed: " ++ failures))

/-- The operation a request names, and its state after the request. -/
structure Requested where
  operationId : String
  state : OperationState
  deriving DecidableEq, Repr

/-- Queue an authored operation that needs no approval. -/
def enqueueIfApproved (lifetime : ℕ) (authored : AuthoredOperation) (now : DateTime) :
    EStateM Exc Session Requested :=
  if authored.requiredApprovals = 0 then do
    let _ ← enqueueApprovedOperation R lifetime authored.operationId now
    return ⟨authored.operationId, .queued⟩
  else return ⟨authored.operationId, authored.state⟩

/-- A request for the site of a Customer, with the UUID its operation would get. -/
structure SiteRequest where
  actor : String
  customer : String
  domain : String
  serverAgent : String
  bench : String
  /-- `customer_doc.check_permission("write")` -/
  mayWrite : Bool
  uuid4 : String
  insertion : Insertion

/-- The operation a Customer has requested already, if it is the same request. -/
def existingRequest (request : SiteRequest) (payload : List (String × Json))
    (existing : ControllerOperation) : Except Exc Requested := do
  let domain ← payloadDomain R existing.payloadJson
  ensure (existing.operationType == "site.create_blank"
      && existing.serverAgent == request.serverAgent && existing.bench == request.bench
      && domain == (Json.get payload "domain").str?)
    (.validation ("Customer already has a site creation operation; review it before requesting "
      ++ "another"))
  return ⟨existing.name, existing.state⟩

/-- The checks of a new request. -/
def checkNewSite (services : Services) (request : SiteRequest) (payload : List (String × Json))
    (db : Database) : Except Exc Unit := do
  ensure (!db.sites.any fun s => some s.domain == (Json.get payload "domain").str?)
    (.validation "A Managed Site already exists for this domain")
  requireOperation R db (targetEnvironment db request.serverAgent none) "site.create_blank"
    (R.dumps (.obj payload)) none
  checkBlankCreation services "site.create_blank" request.serverAgent request.bench payload db

/-- `create_production_site` -/
def createProductionSite (services : Services) (request : SiteRequest) :
    EStateM Exc Session Requested := do
  read fun db => requireAuthor db request.actor
  let document ← lockCustomer request.customer
  Transaction.query fun _ => ensure request.mayWrite (.permission "Customer")
  Transaction.query fun _ => ensure (!truthy document.managedSite)
    (.validation ("Customer already has a Managed Site; clear or replace it before requesting "
      ++ "another"))
  asValidation do
    let authorization ← Transaction.query fun _ =>
      services.validatePayload "site.create_blank" [("domain", .str request.domain)]
    let payload := authorization.normalizedPayload
    match orNone document.siteCreationOperation with
    | some name => do
      let existing ← getDoc "Controller Operation" (·.operation? name)
      Transaction.query fun _ => existingRequest R request payload existing
    | none => do
      read (checkNewSite R services request payload)
      let authored ← author R services.validatePayload {
        operationId := request.uuid4, operationType := "site.create_blank"
        serverAgent := request.serverAgent, bench := request.bench, managedSite := none
        payload } request.actor request.insertion
      setSiteOperation request.insertion.now document authored.operationId
      enqueueIfApproved R services.commandLifetime authored request.insertion.now

end CustomerSites

end FrappeController
