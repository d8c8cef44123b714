import FrappeController.AgentUpgradeTheorems
import FrappeController.InventoryProjection
import FrappeController.Library.Run

/-!
# Runs of the requests that write agent rows

The requests that write the Server Agent table: creation and saves of the document, enrollment,
signed requests, heartbeats, and the two upgrade drivers. `Write` lists what one accepted
request does to one row; `Effect` what it does to the table.
-/

namespace FrappeController
namespace AgentRuns

open FrappeInventory (Session)
open AgentRequests (HttpRequest)
open AgentUpgrades (RouteRequest Kind Change)
open ServerAgent (Sound Permitted stored untouched)

/-! ## Requests -/

/-- A call of an endpoint of `api/upgrades.py`. -/
inductive AdminCall where
  | request (requestJson : Text)
  | refresh (agentId : String)
  | confirmDeployment (agentId observed : String)
  | requestRollback (agentId failureCode : String)
  | cancel (agentId : String)
  | confirmRollback (agentId observed : String)
  | verify (agentId : String)

inductive Request where
  /-- The insert of a new document. -/
  | create (document : ServerAgent)
  /-- The save of a form, without the flag of the controller service. -/
  | saveForm (document : ServerAgent)
  | createToken (agentId actor : String) (ttlSeconds : ℤ) (rawToken : String)
  | enroll (rawToken agentId : String) (pem : Text)
  /-- The signature check of a request, which commits by itself. -/
  | signed (request : HttpRequest) (action : String) (timeNs : ℤ)
  | heartbeat (agentId : String) (state : Json)
  | admin (user : String) (call : AdminCall)
  /-- An action of the upgrade route, after its signature check. -/
  | route (routed : String) (request : RouteRequest)

/-- What the code runs in: the libraries, the site's time zone, and the JSON reader that rejects
duplicate keys. -/
structure Deployment where
  runtime : Runtime
  crypto : Crypto
  zone : DateTime → DateTime
  loadsStrict : Text → Option Json

variable (D : Deployment) (now : DateTime)

/-- The endpoint a call goes to. -/
def AdminCall.run (user : String) : AdminCall → EStateM Exc Session Json
  | .request requestJson =>
    AgentUpgrades.requestAgentUpgrade D.runtime D.zone now D.loadsStrict user requestJson
  | .refresh agentId => AgentUpgrades.refreshAgentDrain D.runtime D.zone now user agentId
  | .confirmDeployment agentId observed =>
    AgentUpgrades.confirmAgentDeployment D.runtime D.zone now user agentId observed
  | .requestRollback agentId failureCode =>
    AgentUpgrades.requestAgentRollback D.runtime D.zone now user agentId failureCode
  | .cancel agentId => AgentUpgrades.cancelAgentUpgrade D.runtime D.zone now user agentId
  | .confirmRollback agentId observed =>
    AgentUpgrades.confirmAgentRollback D.runtime D.zone now user agentId observed
  | .verify agentId => AgentUpgrades.verifyAgentDeployment D.runtime D.zone now user agentId

/-- The transaction of a request, without its answer. -/
def Request.run : Request → EStateM Exc Session Unit
  | .create document => ServerAgent.insert D.runtime (D.zone now) document
  | .saveForm document => do
    let _ ← ServerAgent.save D.runtime (D.zone now) false document
  | .createToken agentId actor ttlSeconds rawToken => do
    let _ ← AgentRequests.createEnrollmentToken D.crypto agentId actor ttlSeconds rawToken now
  | .enroll rawToken agentId pem => AgentRequests.bootstrapAgent D.crypto rawToken agentId pem now
  | .signed request action timeNs => do
    let _ ← AgentRequests.trustedPeerAndRoute D.runtime D.crypto request action timeNs
  | .heartbeat agentId state => do
    let _ ← FrappeInventory.heartbeat D.runtime agentId state now
  | .admin user call => do
    let _ ← call.run D now user
  | .route routed request => do
    let _ ← AgentUpgrades.upgradeAction D.runtime D.zone now routed request

/-- The outcome of a request whose plain reads see `view`, and the version it leaves behind. -/
def serve (request : Request) (view db : Database) : Except Exc Unit × Database :=
  match request.run D now { view, current := db } with
  | .ok _ session => (.ok (), session.current)
  | .error e _ => (.error e, db)

/-! ## Their effects -/

/-- The kinds of upgrade change a request makes. -/
def Request.kinds : Request → List Kind
  | .admin _ (.request _) => [.plan]
  | .admin _ (.refresh _) => [.drain]
  | .admin _ (.confirmDeployment _ _) => [.confirm]
  | .admin _ (.requestRollback _ _) => [.fail]
  | .admin _ (.cancel _) => [.cancel]
  | .admin _ (.confirmRollback _ _) => [.confirm]
  | .admin _ (.verify _) => [.complete]
  | .route _ request => request.action.kinds
  | _ => []

/-- Whether an accepted request may leave the row as it is: an enrollment that is repeated, and
the upgrade calls that find their change already recorded. -/
def Request.optional : Request → Bool
  | .enroll _ _ _ => true
  | .admin user call => (Request.admin user call).kinds.all Kind.optional
  | .route routed request => (Request.route routed request).kinds.all Kind.optional
  | _ => false

/-- The agent a request names; the request of a new upgrade names it in its text. -/
def Request.agentId? : Request → Option String
  | .create document => some document.agentId
  | .saveForm document => some document.name
  | .createToken agentId _ _ _ => some agentId
  | .enroll _ agentId _ => some agentId
  | .signed request _ _ => some request.agentId
  | .heartbeat agentId _ => some agentId
  | .admin _ (.request requestJson) =>
    match D.loadsStrict requestJson with
    | some (.obj value) => (Json.get value "agent_id").str?
    | _ => none
  | .admin _ (.refresh agentId) => some agentId
  | .admin _ (.confirmDeployment agentId _) => some agentId
  | .admin _ (.requestRollback agentId _) => some agentId
  | .admin _ (.cancel agentId) => some agentId
  | .admin _ (.confirmRollback agentId _) => some agentId
  | .admin _ (.verify agentId) => some agentId
  | .route _ request => some request.agentId

/-- What an accepted request makes of a row. -/
inductive Write (view : Database) : Request → ServerAgent → ServerAgent → Prop
  | createToken {row : ServerAgent} {agentId actor rawToken : String} {ttlSeconds : ℤ}
      (hrow : row.name = agentId) :
      Write view (.createToken agentId actor ttlSeconds rawToken) row { row with
        enrollmentTokenHash := some (D.crypto.tokenHash rawToken)
        enrollmentExpiresAt := some (now.addSeconds ttlSeconds.toNat)
        enrollmentTokenCreatedAt := some now, enrollmentTokenCreatedBy := some actor
        enrollmentConsumedAt := none, enrollmentCompletedAt := none }
  | enroll {row : ServerAgent} {rawToken agentId key : String} {pem : Text}
      (hrow : row.name = agentId) (hunused : row.enrollmentConsumedAt = none)
      (hkey : D.crypto.publicKey pem = some key) :
      Write view (.enroll rawToken agentId pem) row (AgentRequests.pinKey D.crypto key now row)
  | signed {row : ServerAgent} {request : HttpRequest} {action : String} {timeNs : ℤ}
      (hrow : row.name = request.agentId)
      (hsequence : ServerAgent.isSequence request.sequence = true)
      (hcheck : AgentRequests.checkSignature D.runtime D.crypto request action row = .ok ()) :
      Write view (.signed request action timeNs) row
        { row with lastSignedRequestAtNs := some request.sequence }
  | heartbeat {row : ServerAgent} {agentId : String} {state : Json}
      {heartbeat : HeartbeatInventory} {revision : ℕ} (hrow : row.name = agentId)
      (hparsed : Inventory.parseHeartbeatState D.runtime state = .ok heartbeat) :
      Write view (.heartbeat agentId state) row
        (FrappeInventory.reportAgent D.runtime heartbeat revision now row)
  | saveForm {row document : ServerAgent} (hrow : row.name = document.name)
      (hstamp : row.modified = document.modified) (hsound : Sound D.runtime document)
      (hpermitted : Permitted row false document) :
      Write view (.saveForm document) row (stored (D.zone now) document)
  | upgrade {request : Request} {kind : Kind} {row loaded document : ServerAgent}
      (hkind : kind ∈ request.kinds) (hrow : request.agentId? D = some row.name)
      (hloaded : Table.get? view.agents row.name = some loaded)
      (hchange : Change D.zone now kind loaded document)
      (hstamp : row.modified = loaded.modified) (hsound : Sound D.runtime document)
      (hpermitted : Permitted row true document) :
      Write view request row (stored (D.zone now) document)

/-- What an accepted request makes of the table. -/
inductive Effect (view : Database) (agents : List ServerAgent) :
    Request → List ServerAgent → Prop
  | same {request : Request} (hoptional : request.optional = true) :
      Effect view agents request agents
  | insert {document : ServerAgent} (hfresh : Table.get? agents document.agentId = none)
      (hsound : Sound D.runtime { document with name := document.agentId })
      (huntouched : untouched document = true) :
      Effect view agents (.create document)
        (agents ++ [stored (D.zone now) { document with name := document.agentId }])
  | write {request : Request} {row row' : ServerAgent} (hrow : row ∈ agents)
      (hwrite : Write D now view request row row') :
      Effect view agents request (Table.setValue row.name (fun _ => row') agents)

/-! ## Rows and their names -/

/-- Rows are named after their agent ids, which are unique. -/
structure Keyed (agents : List ServerAgent) : Prop where
  unique : Table.Unique agents
  agentId : ∀ row ∈ agents, row.agentId = row.name

variable {D now} {view db db' : Database} {agents agents' : List ServerAgent} {request : Request}
variable {row row' : ServerAgent}

/-- Writing a function of the row is writing its value. -/
theorem setValue_eq (h : Keyed agents) (hrow : row ∈ agents) (f : ServerAgent → ServerAgent) :
    Table.setValue row.name f agents = Table.setValue row.name (fun _ => f row) agents := by
  unfold Table.setValue Table.update
  refine List.map_congr_left fun other hother => ?_
  by_cases hname : Named.name other = row.name
  · rw [if_pos hname, if_pos hname, Table.eq_of_mem h.unique hother hrow hname]
  · rw [if_neg hname, if_neg hname]

theorem mem_setValue {r : ServerAgent}
    (hr : r ∈ Table.setValue row.name (fun _ => row') agents) :
    r = row' ∨ (r ∈ agents ∧ r.name ≠ row.name) := by
  obtain ⟨q, hq, heq⟩ := (Table.mem_update _ _).mp hr
  by_cases hname : Named.name q = row.name
  · rw [if_pos hname] at heq
    exact .inl heq.symm
  · rw [if_neg hname] at heq
    exact .inr ⟨heq ▸ hq, heq ▸ hname⟩

theorem Change.agentId {zone : DateTime → DateTime} {kind : Kind} {a b : ServerAgent}
    (h : Change zone now kind a b) : b.agentId = a.agentId := by
  cases h <;> rfl

theorem stored_agentId (t : DateTime) (a : ServerAgent) : (stored t a).agentId = a.agentId := by
  unfold stored
  rw [ServerAgent.normalize_eq]

/-- No request renames a row. -/
theorem Write.name (h : Write D now view request row row') : row'.name = row.name := by
  cases h with
  | saveForm hrow => exact (ServerAgent.stored_name _ _).trans hrow.symm
  | upgrade _ _ hloaded hchange =>
    exact (ServerAgent.stored_name _ _).trans (hchange.name.trans (Table.get?_name hloaded))
  | _ => rfl

theorem Write.agentId (h : Write D now view request row row') : row'.agentId = row.agentId := by
  cases h with
  | saveForm _ _ _ hpermitted => exact (stored_agentId _ _).trans hpermitted.agentId.symm
  | upgrade _ _ _ _ _ _ hpermitted => exact (stored_agentId _ _).trans hpermitted.agentId.symm
  | _ => rfl

/-- The row a request writes is the one it names. -/
theorem Write.agentId? (h : Write D now view request row row') :
    request.agentId? D = some row.name := by
  cases h with
  | upgrade _ hrow => exact hrow
  | createToken hrow => exact congrArg some hrow.symm
  | enroll hrow => exact congrArg some hrow.symm
  | signed hrow => exact congrArg some hrow.symm
  | heartbeat hrow => exact congrArg some hrow.symm
  | saveForm hrow => exact congrArg some hrow.symm

theorem Effect.keyed (h : Effect D now view agents request agents') (hkeyed : Keyed agents) :
    Keyed agents' := by
  cases h with
  | same => exact hkeyed
  | @insert document hfresh hsound huntouched =>
    have hname : (stored (D.zone now) { document with name := document.agentId }).name =
        document.agentId := ServerAgent.stored_name _ _
    constructor
    -- an inserted row has a name no row has
    · show (List.map Named.name (agents ++ [_])).Nodup
      rw [List.map_append, List.nodup_append]
      refine ⟨hkeyed.unique, List.nodup_singleton _, ?_⟩
      rintro n hn _ hm rfl
      obtain ⟨r, hr, rfl⟩ := List.mem_map.mp hn
      rw [List.map_singleton, List.mem_singleton] at hm
      exact Table.get?_eq_none.mp hfresh r hr (hm.trans hname)
    · intro r hr
      rcases List.mem_append.mp hr with hr | hr
      · exact hkeyed.agentId r hr
      · rw [List.mem_singleton.mp hr, stored_agentId, hname]
  | @write _ row row' hrow hwrite =>
    constructor
    -- a written row keeps its name
    · show (List.map Named.name (Table.setValue row.name (fun _ => row') agents)).Nodup
      rw [Table.setValue, Table.update, List.map_map]
      refine (List.map_congr_left fun r hr => ?_) ▸ hkeyed.unique
      show Named.name r = Named.name (if Named.name r = row.name then row' else r)
      by_cases hname : Named.name r = row.name
      · rw [if_pos hname, hname]
        exact hwrite.name.symm
      · rw [if_neg hname]
    · intro r hr
      rcases mem_setValue hr with rfl | ⟨hr, -⟩
      · rw [hwrite.agentId, hwrite.name]
        exact hkeyed.agentId row hrow
      · exact hkeyed.agentId r hr

/-- Where a row comes from: it was there and the request was not about it, or the request wrote
it, or it is new. -/
theorem Effect.row_cases (h : Effect D now view agents request agents') (hrow' : row' ∈ agents') :
    (row' ∈ agents ∧ (request.optional = true ∨ request.agentId? D ≠ some row'.name)) ∨
    (∃ row ∈ agents, row'.name = row.name ∧ Write D now view request row row') ∨
    ∃ document, request = .create document ∧ Table.get? agents row'.name = none ∧
      Sound D.runtime { document with name := document.agentId } ∧ untouched document = true ∧
      row' = stored (D.zone now) { document with name := document.agentId } := by
  cases h with
  | same hoptional => exact .inl ⟨hrow', .inl hoptional⟩
  | @insert document hfresh hsound huntouched =>
    rcases List.mem_append.mp hrow' with hmem | hmem
    · refine .inl ⟨hmem, .inr fun hname => ?_⟩
      exact Table.get?_eq_none.mp hfresh row' hmem (Option.some.inj hname).symm
    · have heq := List.mem_singleton.mp hmem
      have hname : row'.name = document.agentId := by
        rw [heq]
        exact ServerAgent.stored_name _ _
      exact .inr (.inr ⟨document, rfl, hname ▸ hfresh, hsound, huntouched, heq⟩)
  | @write _ row _ hrow hwrite =>
    rcases mem_setValue hrow' with rfl | ⟨hmem, hother⟩
    · exact .inr (.inl ⟨row, hrow, hwrite.name, hwrite⟩)
    · refine .inl ⟨hmem, .inr fun hname => hother ?_⟩
      exact (Option.some.inj (hwrite.agentId?.symm.trans hname)).symm

/-- No request removes a name. -/
theorem Effect.names_kept (h : Effect D now view agents request agents') (hrow : row ∈ agents) :
    ∃ row' ∈ agents', row'.name = row.name := by
  cases h with
  | same => exact ⟨row, hrow, rfl⟩
  | insert => exact ⟨row, List.mem_append_left _ hrow, rfl⟩
  | @write _ written written' hwritten hwrite =>
    by_cases hname : Named.name row = written.name
    · refine ⟨written', (Table.mem_update _ _).mpr ⟨row, hrow, if_pos hname⟩, ?_⟩
      exact hwrite.name.trans hname.symm
    · exact ⟨row, (Table.mem_update _ _).mpr ⟨row, hrow, if_neg hname⟩, rfl⟩

/-! ## The effect of each request -/

section Requests

variable {s s' : Session} {u : Unit}

open Transaction (bind_apply_eq_ok query_eq_ok)
open FrappeInventory (readForUpdate_eq_ok write_eq_ok)

theorem check_eq_ok {c : Bool} {e : Exc} :
    AgentRequests.check c e s = .ok u s' ↔ c = true ∧ s = s' := by
  unfold AgentRequests.check
  rw [query_eq_ok, ensure_eq_ok]

/-- The row a locking read finds by its agent id. -/
theorem lockAgent_eq_ok (hkeyed : Keyed db.agents) {agentId : String}
    (h : AgentRequests.lockAgent agentId db = .ok row) : row ∈ db.agents ∧ row.name = agentId := by
  unfold AgentRequests.lockAgent at h
  cases hfound : FrappeInventory.agent? db agentId with
  | none =>
    rw [hfound] at h
    cases h
  | some found =>
    rw [hfound] at h
    cases h
    obtain ⟨hmem, hid⟩ := InventoryProjection.agent?_eq_some hfound
    exact ⟨hmem, (hkeyed.agentId row hmem).symm.trans hid⟩

theorem setAgent_eq_ok {name : String} {f : ServerAgent → ServerAgent}
    (h : AgentRequests.setAgent name f s = .ok u s') :
    s'.current.agents = Table.setValue name f s.current.agents := by
  unfold AgentRequests.setAgent at h
  rw [write_eq_ok] at h
  rw [h]

/-- A direct write of the locked row. -/
theorem effect_of_setAgent (hkeyed : Keyed s.current.agents) {f : ServerAgent → ServerAgent}
    (hrow : row ∈ s.current.agents) (hset : AgentRequests.setAgent row.name f s = .ok u s')
    (hwrite : Write D now view request row (f row)) :
    Effect D now view s.current.agents request s'.current.agents := by
  rw [setAgent_eq_ok hset, setValue_eq hkeyed hrow]
  exact .write hrow hwrite

theorem createEnrollmentToken_effect (hkeyed : Keyed s.current.agents)
    {agentId actor rawToken token : String} {ttlSeconds : ℤ}
    (h : AgentRequests.createEnrollmentToken D.crypto agentId actor ttlSeconds rawToken now s =
      .ok token s') :
    Effect D now s.view s.current.agents (.createToken agentId actor ttlSeconds rawToken)
      s'.current.agents := by
  unfold AgentRequests.createEnrollmentToken at h
  obtain ⟨⟨⟩, s₁, hagent, h₁⟩ := bind_apply_eq_ok.mp h
  obtain ⟨-, rfl⟩ := check_eq_ok.mp hagent
  obtain ⟨⟨⟩, s₂, hpolicy, h₂⟩ := bind_apply_eq_ok.mp h₁
  obtain ⟨-, rfl⟩ := check_eq_ok.mp hpolicy
  obtain ⟨row, s₃, hlock, h₃⟩ := bind_apply_eq_ok.mp h₂
  obtain ⟨hfound, rfl⟩ := readForUpdate_eq_ok.mp hlock
  obtain ⟨hrow, hname⟩ := lockAgent_eq_ok hkeyed hfound
  obtain ⟨hash, s₄, hquery, h₄⟩ := bind_apply_eq_ok.mp h₃
  obtain ⟨hhash, rfl⟩ := query_eq_ok.mp hquery
  obtain ⟨⟨⟩, s₅, hset, h₅⟩ := bind_apply_eq_ok.mp h₄
  cases h₅
  have htoken : hash = D.crypto.tokenHash rawToken := by
    unfold AgentRequests.tokenHash at hhash
    simp only [Transaction.bind_eq_ok, ensure_eq_ok] at hhash
    obtain ⟨-, -, hhash⟩ := hhash
    exact (Except.ok.inj hhash).symm
  rw [htoken] at hset
  exact effect_of_setAgent hkeyed hrow hset (.createToken hname)

theorem bootstrapAgent_effect (hkeyed : Keyed s.current.agents) {rawToken agentId : String}
    {pem : Text} (h : AgentRequests.bootstrapAgent D.crypto rawToken agentId pem now s = .ok u s') :
    Effect D now s.view s.current.agents (.enroll rawToken agentId pem) s'.current.agents := by
  unfold AgentRequests.bootstrapAgent AgentRequests.completeSigningKeyEnrollment at h
  obtain ⟨key, s₀, hread, h₀⟩ := bind_apply_eq_ok.mp h
  obtain ⟨hkey, rfl⟩ := query_eq_ok.mp hread
  obtain ⟨⟨⟩, s₁, hagent, h₁⟩ := bind_apply_eq_ok.mp h₀
  obtain ⟨-, rfl⟩ := check_eq_ok.mp hagent
  obtain ⟨⟨⟩, s₂, hlength, h₂⟩ := bind_apply_eq_ok.mp h₁
  obtain ⟨-, rfl⟩ := check_eq_ok.mp hlength
  obtain ⟨row, s₃, hlock, h₃⟩ := bind_apply_eq_ok.mp h₂
  obtain ⟨hfound, rfl⟩ := readForUpdate_eq_ok.mp hlock
  obtain ⟨hrow, hname⟩ := lockAgent_eq_ok hkeyed hfound
  obtain ⟨pinned, s₄, hquery, h₄⟩ := bind_apply_eq_ok.mp h₃
  obtain ⟨hpinned, rfl⟩ := query_eq_ok.mp hquery
  have hpublic : D.crypto.publicKey pem = some key := by
    unfold AgentRequests.signingPublicKey at hkey
    simp only [Transaction.bind_eq_ok, ensure_eq_ok] at hkey
    obtain ⟨-, -, -, -, hkey⟩ := hkey
    split at hkey
    · cases hkey
    · rename_i found hfound
      cases hkey
      exact hfound
  cases pinned with
  | true =>
    -- the row already holds the key
    cases h₄
    exact .same rfl
  | false =>
    have hunused : row.enrollmentConsumedAt = none := by
      unfold AgentRequests.checkEnrollment at hpinned
      simp only [Transaction.bind_eq_ok, ensure_eq_ok] at hpinned
      obtain ⟨-, -, -, -, -, -, hpinned⟩ := hpinned
      by_contra hused
      rw [if_pos (Option.isSome_iff_ne_none.mpr hused)] at hpinned
      simp only [Transaction.bind_eq_ok, ensure_eq_ok] at hpinned
      obtain ⟨-, -, hpinned⟩ := hpinned
      cases hpinned
    exact effect_of_setAgent hkeyed hrow h₄ (.enroll hname hunused hpublic)

theorem trustedPeerAndRoute_effect (hkeyed : Keyed s.current.agents) {signed : HttpRequest}
    {action peer : String} {timeNs : ℤ}
    (h : AgentRequests.trustedPeerAndRoute D.runtime D.crypto signed action timeNs s =
      .ok peer s') :
    Effect D now s.view s.current.agents (.signed signed action timeNs) s'.current.agents := by
  unfold AgentRequests.trustedPeerAndRoute at h
  obtain ⟨⟨⟩, s₁, haction, h₁⟩ := bind_apply_eq_ok.mp h
  obtain ⟨-, rfl⟩ := check_eq_ok.mp haction
  obtain ⟨⟨⟩, s₂, hheaders, h₂⟩ := bind_apply_eq_ok.mp h₁
  obtain ⟨hvalid, rfl⟩ := check_eq_ok.mp hheaders
  obtain ⟨⟨⟩, s₃, hwindow, h₃⟩ := bind_apply_eq_ok.mp h₂
  obtain ⟨-, rfl⟩ := check_eq_ok.mp hwindow
  obtain ⟨⟨⟩, s₄, hbody, h₄⟩ := bind_apply_eq_ok.mp h₃
  obtain ⟨-, rfl⟩ := check_eq_ok.mp hbody
  obtain ⟨row, s₅, hlock, h₅⟩ := bind_apply_eq_ok.mp h₄
  obtain ⟨hfound, rfl⟩ := readForUpdate_eq_ok.mp hlock
  obtain ⟨hrow, hname⟩ := lockAgent_eq_ok hkeyed hfound
  obtain ⟨⟨⟩, s₆, hquery, h₆⟩ := bind_apply_eq_ok.mp h₅
  obtain ⟨hcheck, rfl⟩ := query_eq_ok.mp hquery
  obtain ⟨⟨⟩, s₇, hset, h₇⟩ := bind_apply_eq_ok.mp h₆
  cases h₇
  simp only [Bool.and_eq_true] at hvalid
  exact effect_of_setAgent hkeyed hrow hset (.signed hname hvalid.1.2 hcheck)

theorem heartbeat_effect (hkeyed : Keyed s.current.agents) {agentId : String} {state : Json}
    {delta : InventoryDelta}
    (h : FrappeInventory.heartbeat D.runtime agentId state now s = .ok delta s') :
    Effect D now s.view s.current.agents (.heartbeat agentId state) s'.current.agents := by
  obtain ⟨row, heartbeat, old, haccepted⟩ := FrappeInventory.heartbeat_eq_ok h
  obtain ⟨hrow, hid⟩ := InventoryProjection.agent?_eq_some haccepted.locked
  have hname : row.name = agentId := (hkeyed.agentId row hrow).symm.trans hid
  rw [InventoryProjection.agents_written haccepted, setValue_eq hkeyed hrow]
  exact .write hrow (.heartbeat hname haccepted.parsed)

theorem saveForm_effect {document saved : ServerAgent}
    (h : ServerAgent.save D.runtime (D.zone now) false document s = .ok saved s') :
    Effect D now s.view s.current.agents (.saveForm document) s'.current.agents := by
  obtain ⟨-, row, hsaved⟩ := ServerAgent.save_eq_ok h
  have hname : row.name = document.name := Table.get?_name hsaved.found
  rw [hsaved.written, ← hname]
  exact .write (Table.get?_mem hsaved.found)
    (.saveForm hname hsaved.stamp hsaved.sound hsaved.permitted)

theorem AdminCall.spec (user : String) (call : AdminCall) :
    AgentUpgrades.Spec D.runtime D.zone now (Request.admin user call).kinds
      (fun name => (Request.admin user call).agentId? D = some name) s (call.run D now user) := by
  cases call with
  | request requestJson =>
    refine (AgentUpgrades.requestAgentUpgrade_spec D.loadsStrict user requestJson).weaken ?_
    rintro name ⟨value, hvalue, hname⟩
    show (match D.loadsStrict requestJson with
      | some (.obj value) => (Json.get value "agent_id").str?
      | _ => none) = some name
    rw [hvalue]
    show (Json.get value "agent_id").str? = some name
    rw [hname]
    rfl
  | refresh agentId =>
    exact (AgentUpgrades.refreshAgentDrain_spec user agentId).weaken fun _ => Eq.symm ∘ congrArg some
  | confirmDeployment agentId observed =>
    exact (AgentUpgrades.confirmAgentDeployment_spec user agentId observed).weaken
      fun _ => Eq.symm ∘ congrArg some
  | requestRollback agentId failureCode =>
    exact (AgentUpgrades.requestAgentRollback_spec user agentId failureCode).weaken
      fun _ => Eq.symm ∘ congrArg some
  | cancel agentId =>
    exact (AgentUpgrades.cancelAgentUpgrade_spec user agentId).weaken fun _ => Eq.symm ∘ congrArg some
  | confirmRollback agentId observed =>
    exact (AgentUpgrades.confirmAgentRollback_spec user agentId observed).weaken
      fun _ => Eq.symm ∘ congrArg some
  | verify agentId =>
    exact (AgentUpgrades.verifyAgentDeployment_spec user agentId).weaken fun _ => Eq.symm ∘ congrArg some

theorem route_spec (routed : String) (action : RouteRequest) :
    AgentUpgrades.Spec D.runtime D.zone now (Request.route routed action).kinds
      (fun name => (Request.route routed action).agentId? D = some name) s
      (AgentUpgrades.upgradeAction D.runtime D.zone now routed action) :=
  (AgentUpgrades.upgradeAction_spec routed action).weaken fun _ => Eq.symm ∘ congrArg some

theorem upgrade_effect (h : AgentUpgrades.Effect D.runtime D.zone now request.kinds
      (fun name => request.agentId? D = some name) s s')
    (hkinds : request.kinds.all Kind.optional = true → request.optional = true) :
    Effect D now s.view s.current.agents request s'.current.agents := by
  rcases h with ⟨hoptional, h⟩ |
    ⟨kind, hkind, loaded, document, row, hloaded, hconcerns, hchange, hsaved⟩
  · rw [h]
    exact .same (hkinds hoptional)
  · have hname : row.name = document.name := Table.get?_name hsaved.found
    have hrow : row.name = loaded.name := hname.trans hchange.name
    rw [hsaved.written, ← hname]
    refine .write (Table.get?_mem hsaved.found) (.upgrade hkind ?_ ?_ hchange ?_ hsaved.sound
      hsaved.permitted)
    · rw [hrow]
      exact hconcerns
    · rw [hrow]
      exact hloaded
    · rw [hsaved.stamp, hchange.modified]

theorem run_effect (hkeyed : Keyed s.current.agents) (h : request.run D now s = .ok u s') :
    Effect D now s.view s.current.agents request s'.current.agents := by
  cases request with
  | create document =>
    obtain ⟨hfresh, hsound, huntouched, hcurrent⟩ := ServerAgent.insert_eq_ok h
    rw [hcurrent]
    exact .insert hfresh hsound huntouched
  | saveForm document =>
    obtain ⟨saved, s₁, hsave, hrest⟩ := bind_apply_eq_ok.mp h
    cases hrest
    exact saveForm_effect hsave
  | createToken agentId actor ttlSeconds rawToken =>
    obtain ⟨token, s₁, hcreate, hrest⟩ := bind_apply_eq_ok.mp h
    cases hrest
    exact createEnrollmentToken_effect hkeyed hcreate
  | enroll rawToken agentId pem => exact bootstrapAgent_effect hkeyed h
  | signed signed action timeNs =>
    obtain ⟨peer, s₁, hsigned, hrest⟩ := bind_apply_eq_ok.mp h
    cases hrest
    exact trustedPeerAndRoute_effect hkeyed hsigned
  | heartbeat agentId state =>
    obtain ⟨delta, s₁, hheartbeat, hrest⟩ := bind_apply_eq_ok.mp h
    cases hrest
    exact heartbeat_effect hkeyed hheartbeat
  -- the upgrade requests share one specification of what they write
  | admin user call =>
    obtain ⟨answer, s₁, hcall, hrest⟩ := bind_apply_eq_ok.mp h
    cases hrest
    exact upgrade_effect (Transaction.Triple.ok (AdminCall.spec user call) rfl hcall) id
  | route routed action =>
    obtain ⟨answer, s₁, haction, hrest⟩ := bind_apply_eq_ok.mp h
    cases hrest
    exact upgrade_effect (Transaction.Triple.ok (route_spec routed action) rfl haction) id

end Requests

variable (now) in
/-- A request is accepted with one of these effects, or raises and leaves nothing behind. -/
theorem serve_cases (hkeyed : Keyed db.agents) (request : Request) (view : Database) :
    (∃ db', serve D now request view db = (.ok (), db') ∧
      Effect D now view db.agents request db'.agents) ∨
    ∃ e, serve D now request view db = (.error e, db) := by
  unfold serve
  cases hrun : request.run D now { view, current := db } with
  | ok u session => exact .inl ⟨session.current, rfl, run_effect hkeyed hrun⟩
  | error e session => exact .inr ⟨e, rfl⟩

/-! ## Runs, one request after the other -/

inductive Label where
  | request (request : Request) (now : DateTime) (accepted : Bool)
  /-- Anything that leaves the agents' rows alone: leases, results, authoring, settings. -/
  | other

variable (D) in
inductive Step : Database → Label → Database → Prop
  | request {db : Database} (request : Request) (now : DateTime) :
      Step db (.request request now (serve D now request db db).1.isOk)
        (serve D now request db db).2
  | other {db db' : Database} (h : db'.agents = db.agents) : Step db .other db'

/-- A step that is no accepted request leaves the table alone; one that is has an effect. -/
theorem Step.cases {l : Label} (hstep : Step D db l db') (hkeyed : Keyed db.agents) :
    (db'.agents = db.agents ∧ ∀ request now, l ≠ .request request now true) ∨
    ∃ request now, l = .request request now true ∧
      Effect D now db db.agents request db'.agents := by
  cases hstep with
  | other h => exact .inl ⟨h, fun _ _ hlabel => by cases hlabel⟩
  | request request now =>
    rcases serve_cases (D := D) now hkeyed request db with
      ⟨db', hserve, heffect⟩ | ⟨e, hserve⟩
    · rw [hserve]
      exact .inr ⟨request, now, rfl, heffect⟩
    · rw [hserve]
      exact .inl ⟨rfl, fun _ _ hlabel => by cases hlabel⟩

theorem Step.keyed {l : Label} (hstep : Step D db l db') (hkeyed : Keyed db.agents) :
    Keyed db'.agents := by
  rcases hstep.cases hkeyed with ⟨h, -⟩ | ⟨request, now, -, heffect⟩
  · rw [h]
    exact hkeyed
  · exact heffect.keyed hkeyed

theorem keyed_nil : Keyed [] := by
  constructor
  · exact List.nodup_nil
  · intro row hrow
    cases hrow

/-- Where a row comes from: it was there and the step was not about it, or the step wrote it, or
it is new. -/
theorem Step.row_cases {l : Label} (hstep : Step D db l db') (hkeyed : Keyed db.agents)
    (hrow' : row' ∈ db'.agents) :
    (row' ∈ db.agents ∧ ∀ request now, l = .request request now true →
      request.optional = true ∨ request.agentId? D ≠ some row'.name) ∨
    (∃ request now row, l = .request request now true ∧ row ∈ db.agents ∧ row'.name = row.name ∧
      Write D now db request row row') ∨
    ∃ document now, l = .request (.create document) now true ∧
      Table.get? db.agents row'.name = none ∧
      Sound D.runtime { document with name := document.agentId } ∧ untouched document = true ∧
      row' = stored (D.zone now) { document with name := document.agentId } := by
  rcases hstep.cases hkeyed with ⟨h, hlabel⟩ | ⟨request, now, rfl, heffect⟩
  · rw [h] at hrow'
    exact .inl ⟨hrow', fun request now hl => absurd hl (hlabel request now)⟩
  · rcases heffect.row_cases hrow' with ⟨hmem, hother⟩ | ⟨row, hrow, hname, hwrite⟩ |
      ⟨document, rfl, hfresh, hsound, huntouched, heq⟩
    · refine .inl ⟨hmem, fun request' now' hlabel => ?_⟩
      cases hlabel
      exact hother
    · exact .inr (.inl ⟨request, now, row, rfl, hrow, hname, hwrite⟩)
    · exact .inr (.inr ⟨document, now, rfl, hfresh, hsound, huntouched, heq⟩)

/-- A property of rows that new documents have and accepted requests keep. -/
theorem Step.rows {l : Label} {P : ServerAgent → Prop} (hstep : Step D db l db')
    (hkeyed : Keyed db.agents) (hrows : ∀ row ∈ db.agents, P row)
    (hinsert : ∀ now document, Sound D.runtime document → untouched document = true →
      P (stored now document))
    (hwrite : ∀ request now row row', l = .request request now true → row ∈ db.agents →
      Write D now db request row row' → P row → P row') :
    ∀ row ∈ db'.agents, P row := by
  intro row' hrow'
  rcases hstep.row_cases hkeyed hrow' with ⟨hmem, -⟩ | ⟨request, now, row, hl, hrow, -, hwritten⟩ |
    ⟨document, now, -, -, hsound, huntouched, rfl⟩
  · exact hrows row' hmem
  · exact hwrite request now row row' hl hrow hwritten (hrows row hrow)
  · exact hinsert (D.zone now) _ hsound huntouched

/-- With one request after the other, the loaded document is the stored row. -/
theorem loaded_eq (hkeyed : Keyed db.agents) (hrow : row ∈ db.agents) {loaded : ServerAgent}
    (h : Table.get? db.agents row.name = some loaded) : loaded = row :=
  Option.some.inj (h.symm.trans (Table.get?_of_mem hkeyed.unique hrow))

/-! ## Playing requests one after the other -/

section Play

variable (D)

/-- The state after the requests, each with its instant. -/
def play : List (Request × DateTime) → Database → Database
  | [], db => db
  | (request, now) :: rest, db => play rest (serve D now request db db).2

/-- Their labels. -/
def labelsOf : List (Request × DateTime) → Database → List Label
  | [], _ => []
  | (request, now) :: rest, db =>
    .request request now (serve D now request db db).1.isOk
      :: labelsOf rest (serve D now request db db).2

theorem run_play (requests : List (Request × DateTime)) (db : Database) :
    Run (Step D) db (labelsOf D requests db) (play D requests db) := by
  induction requests generalizing db with
  | nil => exact .nil db
  | cons head rest ih => exact (Run.single (Step.request head.1 head.2)).append (ih _)

/-- The requests the upgrade route is made of: the signature check, which commits by itself, and
the action for the agent it found. -/
def routeRequests (now : DateTime) (request : HttpRequest) (timeNs : ℤ) (db : Database) :
    List (Request × DateTime) :=
  match AgentUpgrades.body D.runtime request with
  | .error _ => []
  | .ok value =>
    match AgentRequests.trustedPeerAndRoute D.runtime D.crypto request "upgrade" timeNs
        { view := db, current := db } with
    | .error _ _ => []
    | .ok routed _ => [(.signed request "upgrade" timeNs, now), (.route routed value, now)]

/-- A call of the upgrade route is a run of these requests. -/
theorem run_upgradeRoute (now : DateTime) (request : HttpRequest) (timeNs : ℤ) (db : Database) :
    Run (Step D) db (labelsOf D (routeRequests D now request timeNs db) db)
      (AgentUpgrades.upgradeRoute D.runtime D.zone now D.crypto request timeNs db).2 := by
  have hplay : (AgentUpgrades.upgradeRoute D.runtime D.zone now D.crypto request timeNs db).2 =
      play D (routeRequests D now request timeNs db) db := by
    unfold AgentUpgrades.upgradeRoute routeRequests
    cases hbody : AgentUpgrades.body D.runtime request with
    | error e => rfl
    | ok value =>
      cases hsigned : AgentRequests.trustedPeerAndRoute D.runtime D.crypto request "upgrade" timeNs
          { view := db, current := db } with
      | error e session => rfl
      | ok routed session =>
        have hcommit : (serve D now (.signed request "upgrade" timeNs) db db).2 =
            session.current := by
          simp only [serve, Request.run, Transaction.bind_apply, hsigned]
          rfl
        simp only [play, hcommit]
        simp only [serve, Request.run, Transaction.bind_apply]
        cases AgentUpgrades.upgradeAction D.runtime D.zone now routed value
            { view := session.current, current := session.current } with
        | error e session' => rfl
        | ok response session' => rfl
  rw [hplay]
  exact run_play D (routeRequests D now request timeNs db) db

/-- What holds of the requests' labels, accepted or not. -/
theorem forall_labelsOf {P : Label → Prop} {requests : List (Request × DateTime)}
    (h : ∀ p ∈ requests, ∀ accepted, P (.request p.1 p.2 accepted)) (db : Database) :
    ∀ l ∈ labelsOf D requests db, P l := by
  induction requests generalizing db with
  | nil =>
    intro l hl
    cases hl
  | cons head rest ih =>
    intro l hl
    rcases List.mem_cons.mp hl with rfl | hl
    · exact h head List.mem_cons_self _
    · exact ih (fun p hp => h p (List.mem_cons_of_mem _ hp)) _ l hl

end Play

/-! ## A site with one agent -/

namespace Sample

def zeros : String := "0000000000000000000000000000000000000000000000000000000000000000"

def ones : String := "1111111111111111111111111111111111111111111111111111111111111111"

/-- An inventory without benches. -/
def inventory : InventorySnapshot where
  schemaVersion := 1
  inventoryVersion := "1.0"
  benches := []

/-- The documents of a site that stores this inventory, decoded. -/
def loads (text : List Char) : Option Json :=
  if text = "[]".toList then some (.arr [])
  else if text = "[\"frappe\"]".toList then some (.arr [.str "frappe"])
  else some (Inventory.snapshotJson inventory).sorted

def runtime : Runtime where
  sha256 _ := zeros
  loads := loads
  unread _ := .decode
  uuid _ := none
  uuid5 _ name := name
  casefold text := text
  lower text := text
  fromisoformat _ := .invalid
  floatRepr _ := "0.0"

/-- Signatures of 86 characters `A` verify, under every key. -/
def crypto : Crypto where
  verify _ signature _ := signature == String.ofList (List.replicate 86 'A')
  tokenHash _ := zeros
  keyDigest _ := zeros
  publicKey _ := some zeros

/-- From version 1.0.0 and the image of zeros to version 2.0.0 and the image of ones. -/
def upgradeRequest : Json :=
  .obj [("agent_id", .str "agent-a"), ("desired_agent_version", .str "2.0.0"),
    ("desired_image_digest", .str ones), ("previous_image_digest", .str zeros)]

/-- The site, `zone` being its clock. -/
def deployment (zone : DateTime → DateTime) : Deployment where
  runtime := runtime
  crypto := crypto
  zone := zone
  loadsStrict _ := some upgradeRequest

def agent : ServerAgent where
  name := "agent-a"
  agentId := "agent-a"
  environment := "production"
  enabled := true
  audience := "frappe-controller"
  drainRequested := false
  inventoryDigest := none

def start : Database where
  agents := []
  benches := []
  sites := []
  policies := []
  operations := []
  operationTargets := []
  operationApprovals := []
  operationEvents := []
  bulkOperations := []
  bulkTargets := []
  bulkApprovals := []
  roles := [("admin", ["Controller Admin"])]
  featureConfig :=
    { masterEnabled := true, features := [("agent_upgrades", ["production"])] }

def heartbeat (version : String) : Request :=
  .heartbeat "agent-a" (.obj [("status", .str "ready"), ("version", .str version),
    ("inventory_digest", .str zeros), ("inventory", Inventory.snapshotJson inventory)])

/-- An upgrade that waits for its deployment. -/
def drained : List (Request × DateTime) :=
  [(.create agent, ⟨0⟩), (heartbeat "1.0.0", ⟨1⟩), (.admin "admin" (.request []), ⟨2⟩),
    (.admin "admin" (.refresh "agent-a"), ⟨3⟩)]

/-- The confirmation of its deployment. -/
def confirm : Request := .admin "admin" (.confirmDeployment "agent-a" ones)

/-- The verification of its deployment. -/
def verify : Request := .admin "admin" (.verify "agent-a")

/-- The whole upgrade. -/
def upgraded : List (Request × DateTime) :=
  drained ++ [(confirm, ⟨4⟩), (heartbeat "2.0.0", ⟨5⟩), (verify, ⟨6⟩)]

end Sample

end AgentRuns

end FrappeController
