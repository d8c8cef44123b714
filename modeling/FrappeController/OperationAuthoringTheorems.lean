import FrappeController.FrappeInventoryTheorems
import FrappeController.OperationRequests

/-!
# What the authoring requests write

One lemma for each operation of the authoring modules: what it read when it returned, and the
rows it wrote. A session's two databases get the same writes (`both`).
-/

namespace FrappeController

namespace FrappeInventory

/-- The session after a write. -/
def Session.both (s : Session) (f : Database → Database) : Session := ⟨f s.view, f s.current⟩

@[simp] theorem Session.both_view (s : Session) (f : Database → Database) :
    (s.both f).view = f s.view := rfl

@[simp] theorem Session.both_current (s : Session) (f : Database → Database) :
    (s.both f).current = f s.current := rfl

end FrappeInventory

namespace OperationDocuments

open FrappeInventory (Session read readForUpdate write read_eq_ok readForUpdate_eq_ok write_eq_ok)
open Transaction (bind_eq_ok bind_apply_eq_ok query_eq_ok)

variable {R : Runtime} {s s' : Session} {u : Unit}

/-! ## Documents -/

/-- The database with an operation appended. -/
def addOperation (op : ControllerOperation) (db : Database) : Database :=
  { db with operations := db.operations ++ [op] }

/-- The database with a target appended. -/
def addTarget (t : OperationTarget) (db : Database) : Database :=
  { db with operationTargets := db.operationTargets ++ [t] }

theorem insertOperation_eq_ok {user : String} {service : Bool} {op : ControllerOperation}
    (h : insertOperation R user service op s = .ok u s') :
    validate R none service op s.view = .ok () ∧ freeColumns op s.current = true ∧
      s' = s.both (addOperation op) := by
  obtain ⟨⟨⟩, s₁, huser, h₁⟩ := bind_apply_eq_ok.mp h
  obtain ⟨-, rfl⟩ := query_eq_ok.mp huser
  obtain ⟨⟨⟩, s₂, hread, h₂⟩ := bind_apply_eq_ok.mp h₁
  obtain ⟨hvalid, rfl⟩ := read_eq_ok.mp hread
  obtain ⟨⟨⟩, s₃, hlocked, h₃⟩ := bind_apply_eq_ok.mp h₂
  obtain ⟨hfree, rfl⟩ := readForUpdate_eq_ok.mp hlocked
  exact ⟨hvalid, ensure_eq_ok.mp hfree, write_eq_ok.mp h₃⟩

theorem insertTarget_eq_ok {t : OperationTarget} (h : insertTarget t s = .ok u s') :
    validateTarget t s.view = .ok () ∧ freeTargetColumns t s.current = true ∧
      s' = s.both (addTarget t) := by
  obtain ⟨⟨⟩, s₁, hread, h₁⟩ := bind_apply_eq_ok.mp h
  obtain ⟨hvalid, rfl⟩ := read_eq_ok.mp hread
  obtain ⟨⟨⟩, s₂, hlocked, h₂⟩ := bind_apply_eq_ok.mp h₁
  obtain ⟨hfree, rfl⟩ := readForUpdate_eq_ok.mp hlocked
  exact ⟨hvalid, ensure_eq_ok.mp hfree, write_eq_ok.mp h₂⟩

/-- A new operation has a name of its own. -/
theorem ne_name_of_freeColumns {op other : ControllerOperation} {db : Database}
    (h : freeColumns op db = true) (hother : other ∈ db.operations) : other.name ≠ op.name := by
  intro hname
  simp only [freeColumns, Bool.not_eq_true', List.any_eq_false] at h
  exact h other hother (by simp [hname])

theorem eq_of_orNone_some {a b : String} (h : orNone (some a) = orNone (some b)) : a = b := by
  by_cases ha : a = ""
  · by_cases hb : b = ""
    · rw [ha, hb]
    · rw [orNone_eq_some.mpr ⟨rfl, hb⟩] at h
      exact Option.some.inj (orNone_eq_some.mp h).1
  · rw [orNone_eq_some.mpr ⟨rfl, ha⟩] at h
    exact (Option.some.inj (orNone_eq_some.mp h.symm).1).symm

/-- A retry that passes its checks has the columns of the operation it retries, which ended
unsuccessfully. -/
theorem validateRetry_eq_ok {isNew service : Bool} {db : Database} {op : ControllerOperation}
    {source : String} (h : validateRetry isNew service db op source = .ok u) :
    ∃ original, db.operation? source = some original ∧ retryState original.state = true ∧
      retryColumns op = retryColumns original := by
  obtain ⟨⟨⟩, -, h⟩ := bind_eq_ok.mp h
  split at h
  · cases h
  · rename_i original horiginal
    obtain ⟨⟨⟩, hsource, h⟩ := bind_eq_ok.mp h
    obtain ⟨⟨⟩, hstate, -⟩ := bind_eq_ok.mp hsource
    exact ⟨original, horiginal, ensure_eq_ok.mp hstate, by simpa using ensure_eq_ok.mp h⟩

/-- What `validate` finds about the retry lineage of a new operation without a bulk target. -/
theorem validate_retry {service : Bool} {db : Database} {op : ControllerOperation}
    {source : String} (hbulk : truthy op.bulkParent = false ∧ truthy op.bulkTarget = false)
    (hretry : orNone op.retryOf = some source) (h : validate R none service op db = .ok u) :
    ∃ original, db.operation? source = some original ∧ retryState original.state = true ∧
      retryColumns op = retryColumns original := by
  obtain ⟨⟨⟩, -, h⟩ := bind_eq_ok.mp h
  obtain ⟨⟨⟩, -, h⟩ := bind_eq_ok.mp h
  obtain ⟨⟨⟩, -, h⟩ := bind_eq_ok.mp h
  obtain ⟨⟨⟩, -, h⟩ := bind_eq_ok.mp h
  obtain ⟨⟨⟩, hlineage, -⟩ := bind_eq_ok.mp h
  simp only [validateLineage, hbulk.1, hbulk.2, Bool.or_self, hretry] at hlineage
  exact validateRetry_eq_ok hlineage

/-- The write of a dispatch. -/
def queued (name : String) (text : Text) (digest : String) (db : Database) : Database :=
  db.advance name none (Dispatcher.queue text digest) (fun t => { t with state := .queued }) id

/-- A dispatch finds its command queued, or queues it. -/
theorem enqueueApprovedOperation_eq_ok {lifetime : ℕ} {name : String} {now : DateTime}
    {env : List (String × Json)}
    (h : enqueueApprovedOperation R lifetime name now s = .ok env s') :
    Dispatcher.envelope R lifetime s.current name now = .ok env ∧
      ∃ op digest, s.view.operation? name = some op ∧ immutableCommandHash R env = .ok digest ∧
        ((op.state = .queued ∧ orNone op.commandHash = some digest ∧ s' = s) ∨
          ∃ text, op.state = .awaitingApproval ∧ orNone op.commandHash = none ∧
            s' = s.both (queued name text digest)) := by
  obtain ⟨env', s₁, hlocked, h₁⟩ := bind_apply_eq_ok.mp h
  obtain ⟨henv, rfl⟩ := readForUpdate_eq_ok.mp hlocked
  obtain ⟨op, s₂, hread, h₂⟩ := bind_apply_eq_ok.mp h₁
  obtain ⟨hop, rfl⟩ := read_eq_ok.mp hread
  obtain ⟨digest, s₃, hquery, h₃⟩ := bind_apply_eq_ok.mp h₂
  obtain ⟨hdigest, rfl⟩ := query_eq_ok.mp hquery
  -- the row is read in the snapshot, its envelope from the locked rows
  have hrow : s.view.operation? name = some op := by
    cases hfound : s.view.operation? name with
    | none => rw [hfound] at hop; cases hop
    | some found => rw [hfound] at hop; cases hop; rfl
  split at h₃
  -- queued before with the same digest: nothing is written
  · rename_i hqueued
    cases h₃
    exact ⟨henv, op, digest, hrow, hdigest, .inl ⟨hqueued.1, hqueued.2, rfl⟩⟩
  · split at h₃
    · cases h₃
    · rename_i hdispatchable
      simp only [not_or, not_not] at hdispatchable
      obtain ⟨text, s₄, hencode, h₄⟩ := bind_apply_eq_ok.mp h₃
      obtain ⟨-, rfl⟩ := query_eq_ok.mp hencode
      obtain ⟨⟨⟩, s₅, hwrite, h₅⟩ := bind_apply_eq_ok.mp h₄
      rw [write_eq_ok] at hwrite
      cases h₅
      exact ⟨henv, op, digest, hrow, hdigest,
        .inr ⟨text, hdispatchable.1, hdispatchable.2, hwrite⟩⟩

end OperationDocuments

namespace OperationAuthoring

open FrappeInventory (Session read readForUpdate write read_eq_ok readForUpdate_eq_ok write_eq_ok)
open Transaction (bind_eq_ok bind_apply_eq_ok query_eq_ok)
open OperationDocuments

variable {R : Runtime} {s s' : Session} {u : Unit}

/-! ## Authoring -/

/-- A resolved target is the requested one. -/
structure Resolved (db : Database) (serverAgent bench : String) (managedSite : Option String)
    (t : TargetSnapshot) : Prop where
  serverAgent : t.serverAgent = serverAgent
  bench : t.bench = bench
  managedSite : t.managedSite = managedSite

theorem resolveSite_eq_ok {db : Database} {agent : ServerAgent} {serverAgent bench : String}
    {managedSite : Option String} {site : Option ManagedSite}
    (h : resolveSite db agent serverAgent bench managedSite = .ok site) :
    site.map (·.name) = managedSite := by
  unfold resolveSite at h
  split at h
  · cases h
    rfl
  · split at h
    · cases h
    · rename_i found hfound
      obtain ⟨⟨⟩, -, h⟩ := bind_eq_ok.mp h
      cases h
      exact congrArg some (Table.get?_name hfound)

theorem postInit_eq_ok {t t' : TargetSnapshot} (h : TargetSnapshot.postInit t = .ok t') :
    t' = t := by
  obtain ⟨⟨⟩, -, h⟩ := bind_eq_ok.mp h
  obtain ⟨⟨⟩, -, h⟩ := bind_eq_ok.mp h
  obtain ⟨⟨⟩, -, h⟩ := bind_eq_ok.mp h
  obtain ⟨⟨⟩, -, h⟩ := bind_eq_ok.mp h
  cases h
  rfl

theorem resolveTarget_eq_ok {db : Database} {serverAgent bench : String}
    {managedSite : Option String} {t : TargetSnapshot}
    (h : resolveTarget R db serverAgent bench managedSite = .ok t) :
    Resolved db serverAgent bench managedSite t := by
  unfold resolveTarget at h
  split at h
  · rename_i agent benchRow hagent hbench
    obtain ⟨⟨⟩, -, h⟩ := bind_eq_ok.mp h
    obtain ⟨⟨⟩, -, h⟩ := bind_eq_ok.mp h
    obtain ⟨agentCaps, -, h⟩ := bind_eq_ok.mp h
    obtain ⟨benchCaps, -, h⟩ := bind_eq_ok.mp h
    obtain ⟨site, hsite, h⟩ := bind_eq_ok.mp h
    rw [postInit_eq_ok h]
    exact ⟨Table.get?_name hagent, Table.get?_name hbench, resolveSite_eq_ok hsite⟩
  · cases h

/-- What an authored operation has of its request. -/
structure Authors (R : Runtime) (request : OperationRequest) (actor : String)
    (authored : AuthoredOperation) : Prop where
  operationId : R.uuid request.operationId = some authored.operationId
  operationType : authored.operationType = request.operationType
  serverAgent : authored.serverAgent = request.serverAgent
  bench : authored.bench = request.bench
  managedSite : authored.managedSite = request.managedSite
  requestedBy : authored.requestedBy = actor
  retryOf : authored.retryOf = request.retryOf
  state : authored.state = .awaitingApproval

theorem authored_eq_ok {validator : PayloadValidator} {request : OperationRequest}
    {actor : String} {db : Database} {result : AuthoredOperation}
    (h : authored R validator request actor db = .ok result) : Authors R request actor result := by
  obtain ⟨⟨⟩, -, h⟩ := bind_eq_ok.mp h
  obtain ⟨uuid, huuid, h⟩ := bind_eq_ok.mp h
  obtain ⟨⟨⟩, -, h⟩ := bind_eq_ok.mp h
  obtain ⟨target, htarget, h⟩ := bind_eq_ok.mp h
  obtain ⟨⟨⟩, -, h⟩ := bind_eq_ok.mp h
  obtain ⟨⟨⟩, -, h⟩ := bind_eq_ok.mp h
  obtain ⟨authorization, -, h⟩ := bind_eq_ok.mp h
  obtain ⟨⟨⟩, -, h⟩ := bind_eq_ok.mp h
  obtain ⟨policy, -, h⟩ := bind_eq_ok.mp h
  obtain ⟨⟨payloadJson, payloadHash⟩, -, h⟩ := bind_eq_ok.mp h
  obtain ⟨previewOf, -, h⟩ := bind_eq_ok.mp h
  cases h
  have hresolved := resolveTarget_eq_ok htarget
  -- the id is kept in its canonical form
  have hcanonical : R.uuid request.operationId = some uuid := by
    unfold operationUuid at huuid
    split at huuid
    · cases huuid
    · rename_i canonical hcanonical
      obtain ⟨⟨⟩, -, hlast⟩ := bind_eq_ok.mp huuid
      cases hlast
      exact hcanonical
  exact ⟨hcanonical, rfl, hresolved.serverAgent, hresolved.bench, hresolved.managedSite, rfl, rfl,
    rfl⟩

/-- `create` finds the operation, or inserts it with its target. -/
theorem create_eq_ok {user : String} {authored : AuthoredOperation} {insertion : Insertion}
    (h : create R user authored insertion s = .ok u s') :
    (∃ op, s.view.operation? authored.operationId = some op ∧
      existingIsIdentical authored op s.view = .ok () ∧ s' = s) ∨
    (s.view.operation? authored.operationId = none ∧
      validate R none (truthy authored.retryOf) (operationDocument authored insertion.now) s.view
        = .ok () ∧
      freeColumns (operationDocument authored insertion.now) s.current = true ∧
      ∃ db, s' = s.both (addTarget (targetDocument authored insertion.targetName db) ∘
        addOperation (operationDocument authored insertion.now))) := by
  obtain ⟨found, s₁, hread, h₁⟩ := bind_apply_eq_ok.mp h
  obtain ⟨hfound, rfl⟩ := read_eq_ok.mp hread
  cases hfound
  -- an operation of that id is repeated only if it is identical
  cases hop : s.view.operation? authored.operationId with
  | some op =>
    rw [hop] at h₁
    obtain ⟨hidentical, rfl⟩ := read_eq_ok.mp h₁
    exact .inl ⟨op, rfl, hidentical, rfl⟩
  | none =>
    rw [hop] at h₁
    obtain ⟨⟨⟩, s₂, hinsert, h₂⟩ := bind_apply_eq_ok.mp h₁
    obtain ⟨hvalid, hfree, rfl⟩ := insertOperation_eq_ok hinsert
    obtain ⟨t, s₃, hdocument, h₃⟩ := bind_apply_eq_ok.mp h₂
    obtain ⟨htarget, rfl⟩ := read_eq_ok.mp hdocument
    cases htarget
    obtain ⟨-, -, hlast⟩ := insertTarget_eq_ok h₃
    exact .inr ⟨rfl, hvalid, hfree, _, hlast⟩

theorem author_eq_ok {validator : PayloadValidator} {request : OperationRequest}
    {actor : String} {insertion : Insertion} {result : AuthoredOperation}
    (h : author R validator request actor insertion s = .ok result s') :
    authored R validator request actor s.view = .ok result ∧
      create R actor result insertion s = .ok () s' := by
  obtain ⟨result', s₁, hread, h₁⟩ := bind_apply_eq_ok.mp h
  obtain ⟨hauthored, rfl⟩ := read_eq_ok.mp hread
  obtain ⟨⟨⟩, s₂, hcreate, h₂⟩ := bind_apply_eq_ok.mp h₁
  cases h₂
  exact ⟨hauthored, hcreate⟩

end OperationAuthoring

namespace CustomerSites

open FrappeInventory (Session read readForUpdate write read_eq_ok readForUpdate_eq_ok write_eq_ok)
open Transaction (bind_eq_ok bind_apply_eq_ok query_eq_ok)
open OperationDocuments OperationAuthoring

variable {R : Runtime} {s s' : Session} {u : Unit}

/-! ## Endpoints -/

theorem getDoc_eq_ok {ρ : Type} {doctype : String} {row? : Database → Option ρ} {row : ρ}
    (h : getDoc doctype row? s = .ok row s') : row? s.view = some row ∧ s = s' := by
  obtain ⟨hrow, rfl⟩ := read_eq_ok.mp h
  split at hrow
  · cases hrow
  · rename_i found hfound
    cases hrow
    exact ⟨hfound, rfl⟩

theorem getDoc_of_some {ρ : Type} {doctype : String} {row? : Database → Option ρ} {row : ρ}
    (h : row? s.view = some row) : getDoc doctype row? s = .ok row s := by
  refine read_eq_ok.mpr ⟨?_, rfl⟩
  simp only [h]

theorem asValidation_eq_ok {α : Type} {m : EStateM Exc Session α} {a : α} :
    asValidation m s = .ok a s' ↔ m s = .ok a s' := by
  unfold asValidation
  split
  · rename_i hm
    simp [hm]
  · rfl

/-- A save writes the document over the row it was read from, or one saved in the same instant. -/
theorem saveCustomer_eq_ok {now : DateTime} {document : Customer}
    (h : saveCustomer now document s = .ok u s') :
    ∃ row, Table.get? s.current.customers document.name = some row ∧
      row.modified = document.modified ∧ s' = s.both fun db => { db with
        customers := Table.setValue document.name (fun _ => { document with modified := now })
          db.customers } := by
  obtain ⟨⟨⟩, s₁, hread, h₁⟩ := bind_apply_eq_ok.mp h
  obtain ⟨hlatest, rfl⟩ := readForUpdate_eq_ok.mp hread
  split at hlatest
  · cases hlatest
  · rename_i row hrow
    exact ⟨row, hrow, by simpa using hlatest, write_eq_ok.mp h₁⟩

/-- What the last part of a request wrote: the command of the operation, if it needs no
approval. -/
theorem enqueueIfApproved_eq_ok {lifetime : ℕ} {result : AuthoredOperation} {now : DateTime}
    {answer : Requested} (h : enqueueIfApproved R lifetime result now s = .ok answer s') :
    answer.operationId = result.operationId ∧
      ((0 < result.requiredApprovals ∨ result.requiredApprovals < 0) ∧ s' = s ∨
        result.requiredApprovals = 0 ∧ ∃ env,
          enqueueApprovedOperation R lifetime result.operationId now s = .ok env s') := by
  unfold enqueueIfApproved at h
  split at h
  · rename_i hzero
    obtain ⟨env, s₁, henqueue, h₁⟩ := bind_apply_eq_ok.mp h
    cases h₁
    exact ⟨rfl, .inr ⟨hzero, env, henqueue⟩⟩
  · rename_i hrequired
    cases h
    exact ⟨rfl, .inl ⟨by omega, rfl⟩⟩

end CustomerSites

end FrappeController
