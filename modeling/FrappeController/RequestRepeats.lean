import FrappeController.CommandSnapshot
import FrappeController.RetryLineage

/-!
# Repeated creation requests

`create_operation` may be sent again with the same operation id. The repeat derives the operation
anew from the live rows, compares it with the stored one and queues it again, so its answer
depends on what has happened in between: `Since` says what later versions keep, `Repeatable` when
the repeat is answered like the first request (`repeat_create_iff`).
-/

namespace FrappeController
namespace RequestRepeats

open Dispatcher FrappeStore
open CommandSnapshot (Keeps agentIdentity SameFleet)
open FrappeInventory (Session read readForUpdate write read_eq_ok readForUpdate_eq_ok write_eq_ok)
open OperationDocuments OperationAuthoring CustomerSites
open OperationRequests (Created createOperation checkRequest serve serve_cases)
open Transaction (bind_eq_ok bind_apply_eq_ok query_eq_ok)

/-! ## What later versions keep -/

/-- The columns of an operation that its authoring fixed; the others are at their first values. -/
def authoring (op : ControllerOperation) : ControllerOperation :=
  { op with
    approvalStatus := .pending, approvalCount := 0, state := .awaitingApproval
    commandJson := none, commandHash := none, issuedAt := none, expiresAt := none
    leaseExpiresAt := none, lastEventSequence := 0, resultJson := none, resultHash := none
    credentialReceivedAt := none, errorCode := none, startedAt := none, completedAt := none }

/-- What reads those columns only is equal for rows that agree on them. -/
theorem authoring_congr {β : Type} {op op' : ControllerOperation} (f : ControllerOperation → β)
    (hf : ∀ op, f (authoring op) = f op) (h : authoring op' = authoring op) : f op' = f op := by
  rw [← hf op', h, hf]

/-- The columns of a target that are snapshots. -/
def snapshot (t : OperationTarget) : OperationTarget :=
  { t with state := .awaitingApproval, attempt := 0, resultJson := none, errorCode := none }

/-- The targets of an operation. -/
def targetsOf (db : Database) (operation : String) : List OperationTarget :=
  db.operationTargets.filter fun t => t.operation == operation

/-- No later version changes what was authored, whom the agents, benches and sites are, or a
command that was queued. -/
structure Since (db db' : Database) : Prop where
  operation : ∀ name op, db.operation? name = some op → ∃ op', db'.operation? name = some op' ∧
    authoring op' = authoring op ∧
    (orNone op.commandHash ≠ none → op'.commandHash = op.commandHash)
  targets : ∀ name op, db.operation? name = some op →
    (targetsOf db' name).map snapshot = (targetsOf db name).map snapshot
  agents : Keeps agentIdentity db.agents db'.agents
  benches : Keeps Bench.benchId db.benches db'.benches
  sites : Keeps ManagedSite.siteId db.sites db'.sites

section

variable {R : Runtime} {services : Services} {lifetime clockSkew : ℕ} {db db' : Database}

/-- A version loses nothing against itself. -/
theorem Since.refl (db : Database) : Since db db where
  operation := fun _ op hop => ⟨op, hop, rfl, fun _ => rfl⟩
  targets := fun _ _ _ => rfl
  agents := .refl _ _
  benches := .refl _ _
  sites := .refl _ _

/-- What two steps keep they keep together. -/
theorem Since.trans {db'' : Database} (h : Since db db') (h' : Since db' db'') : Since db db'' where
  operation := by
    intro name op hop
    obtain ⟨op₁, hop₁, hsame₁, hhash₁⟩ := h.operation name op hop
    obtain ⟨op₂, hop₂, hsame₂, hhash₂⟩ := h'.operation name op₁ hop₁
    refine ⟨op₂, hop₂, hsame₂.trans hsame₁, fun hsome => ?_⟩
    rw [← hhash₁ hsome]
    exact hhash₂ (hhash₁ hsome ▸ hsome)
  targets := by
    intro name op hop
    obtain ⟨op₁, hop₁, -⟩ := h.operation name op hop
    exact (h'.targets name op₁ hop₁).trans (h.targets name op hop)
  agents := h.agents.trans h'.agents
  benches := h.benches.trans h'.benches
  sites := h.sites.trans h'.sites

/-- A write that moves one operation on, and no queued command. -/
theorem Since.advance {name : String} {bulkTarget : Option String}
    {f : ControllerOperation → ControllerOperation} {g : OperationTarget → OperationTarget}
    {h : BulkOperationTarget → BulkOperationTarget} (hname : ∀ op, (f op).name = op.name)
    (hoperation : ∀ t, (g t).operation = t.operation)
    (hf : ∀ op, authoring (f op) = authoring op) (hg : ∀ t, snapshot (g t) = snapshot t)
    (hhash : ∀ op, db.operation? name = some op → orNone op.commandHash ≠ none →
      (f op).commandHash = op.commandHash) :
    Since db (db.advance name bulkTarget f g h) := by
  have hoperations : (db.advance name bulkTarget f g h).operations =
      Table.setValue name f db.operations := by
    cases bulkTarget <;> rfl
  have htargets : (db.advance name bulkTarget f g h).operationTargets =
      Table.update (fun t => t.operation = name) g db.operationTargets := by
    cases bulkTarget <;> rfl
  have hfleet : (db.advance name bulkTarget f g h).agents = db.agents ∧
      (db.advance name bulkTarget f g h).benches = db.benches ∧
      (db.advance name bulkTarget f g h).sites = db.sites := by
    cases bulkTarget <;> exact ⟨rfl, rfl, rfl⟩
  refine ⟨?_, ?_, hfleet.1 ▸ .refl _ _, hfleet.2.1 ▸ .refl _ _, hfleet.2.2 ▸ .refl _ _⟩
  · intro other op hop
    rw [Database.operation?, hoperations]
    by_cases hother : other = name
    · subst hother
      refine ⟨f op, ?_, hf op, hhash op hop⟩
      rw [Table.get?_setValue_self (f := f) hname, ← Database.operation?, hop, Option.map_some]
    · refine ⟨op, ?_, rfl, fun _ => rfl⟩
      rw [Table.get?_setValue_of_ne (f := f) hname _ hother]
      exact hop
  · intro other op _
    have hselects : ∀ t : OperationTarget, ((g t).operation == other) = (t.operation == other) :=
      fun t => by rw [hoperation]
    rw [targetsOf, htargets, Table.filter_update _ g hselects, Table.map_update _ g hg]
    rfl

/-- What is authored without the need of an approval is queued at once, and targets are targets
of operations. -/
structure Schema (db : Database) : Prop where
  queued : ∀ op ∈ db.operations, op.requiredApprovals = 0 → orNone op.commandHash ≠ none
  linked : ∀ t ∈ db.operationTargets, (db.operation? t.operation).isSome = true

/-- Both keep what later versions keep and what the schema says. -/
structure Kept (db db' : Database) : Prop where
  since : Since db db'
  schema : Schema db → Schema db'

/-- A version keeps what it has. -/
theorem Kept.refl (db : Database) : Kept db db := ⟨.refl db, id⟩

/-- What two steps keep they keep together, and the schema with it. -/
theorem Kept.trans {db'' : Database} (h : Kept db db') (h' : Kept db' db'') : Kept db db'' :=
  ⟨h.since.trans h'.since, fun hschema => h'.schema (h.schema hschema)⟩

/-- A write on the rows of one operation. -/
theorem Kept.advance {name : String} {bulkTarget : Option String}
    {f : ControllerOperation → ControllerOperation} {g : OperationTarget → OperationTarget}
    {h : BulkOperationTarget → BulkOperationTarget} (hname : ∀ op, (f op).name = op.name)
    (hoperation : ∀ t, (g t).operation = t.operation)
    (hf : ∀ op, authoring (f op) = authoring op) (hg : ∀ t, snapshot (g t) = snapshot t)
    (hhash : ∀ op, db.operation? name = some op → orNone op.commandHash ≠ none →
      (f op).commandHash = op.commandHash)
    (hqueued : ∀ op, orNone op.commandHash ≠ none → orNone (f op).commandHash ≠ none) :
    Kept db (db.advance name bulkTarget f g h) where
  since := .advance hname hoperation hf hg hhash
  schema := by
    intro hschema
    have hsince : Since db (db.advance name bulkTarget f g h) := .advance hname hoperation hf hg hhash
    refine ⟨?_, ?_⟩
    · intro op hop hzero
      obtain ⟨q, hq, rfl⟩ := Lifecycle.mem_operations_advance.mp hop
      have hrequired : ∀ q, (f q).requiredApprovals = q.requiredApprovals :=
        fun q => authoring_congr (·.requiredApprovals) (fun _ => rfl) (hf q)
      by_cases hwritten : q.name = name
      · rw [if_pos hwritten] at hzero ⊢
        rw [hrequired] at hzero
        exact hqueued q (hschema.queued q hq hzero)
      · rw [if_neg hwritten] at hzero ⊢
        exact hschema.queued q hq hzero
    · intro t ht
      obtain ⟨t₀, ht₀, rfl⟩ := Lifecycle.mem_operationTargets_advance.mp ht
      have hlinked : (if t₀.operation = name then g t₀ else t₀).operation = t₀.operation := by
        split
        · exact hoperation t₀
        · rfl
      rw [hlinked]
      obtain ⟨op, hop⟩ := Option.isSome_iff_exists.mp (hschema.linked t₀ ht₀)
      obtain ⟨op', hop', -⟩ := hsince.operation _ op hop
      rw [hop']
      rfl

/-- A command hash is no empty text. -/
theorem digest_ne_empty (hhex : ∀ text, isSha256 (R.sha256 text) = true)
    {env : List (String × Json)} {digest : String} (h : immutableCommandHash R env = .ok digest) :
    digest ≠ "" := by
  simp only [immutableCommandHash, bind_eq_ok, pure, Except.pure, Except.ok.injEq] at h
  obtain ⟨text, -, rfl⟩ := h
  intro hempty
  have hdigest := hhex text
  rw [hempty] at hdigest
  cases hdigest

/-- A queued operation has a command hash. -/
theorem orNone_queue {text : Text} {digest : String} {op : ControllerOperation}
    (hne : digest ≠ "") : orNone (queue text digest op).commandHash ≠ none := by
  have hdigest : orNone (queue text digest op).commandHash = some digest :=
    orNone_eq_some.mpr ⟨rfl, hne⟩
  rw [hdigest]
  exact Option.some_ne_none _

/-- A lease, its quarantines and the record of a result. -/
theorem kept_writes {history : List Database} {l : Lifecycle.Label} {base : Database}
    (hl : ∀ name now, l ≠ .dispatch name now)
    (h : Lifecycle.Writes R lifetime clockSkew history l base db) : Kept base db := by
  induction h with
  | refl => exact .refl _
  | step _ hwrite ih =>
    refine ih.trans ?_
    cases hwrite with
    | queue hlabel => exact absurd hlabel (hl _ _)
    | fail =>
      exact .advance (fun _ => rfl) (fun _ => rfl) (fun _ => rfl) (fun _ => rfl)
        (fun _ _ _ => rfl) fun _ hsome => hsome
    | lease =>
      exact .advance (fun _ => rfl) (fun _ => rfl) (fun _ => rfl) (fun _ => rfl)
        (fun _ _ _ => rfl) fun _ hsome => hsome
    | record =>
      exact .advance (fun _ => rfl) (fun _ => rfl) (fun _ => rfl) (fun _ => rfl)
        (fun _ _ _ => rfl) fun _ hsome => hsome

/-- A heartbeat. -/
theorem kept_sameFleet (h : SameFleet db db') : Kept db db' where
  since := by
    refine ⟨?_, ?_, h.agents, h.benches, h.sites⟩
    · intro name op hop
      refine ⟨op, ?_, rfl, fun _ => rfl⟩
      rw [h.rest]
      exact hop
    · intro name op _
      rw [h.rest]
      rfl
  schema := by
    intro hschema
    rw [h.rest]
    exact ⟨hschema.queued, hschema.linked⟩

/-- A dispatch. -/
theorem kept_dispatch (hhex : ∀ text, isSha256 (R.sha256 text) = true) {name : String}
    {now : DateTime} : Kept db (Transaction.committed (dispatch R lifetime name now) db) := by
  cases hrun : dispatch R lifetime name now db with
  | error e s =>
    rw [Transaction.committed_of_error hrun]
    exact .refl db
  | ok env db' =>
    rw [Transaction.committed_of_ok hrun]
    obtain ⟨-, ⟨rfl, -⟩ | ⟨op, digest, text, hop, -, hnone, hdigest, -, rfl⟩⟩ :=
      Lifecycle.dispatch_eq_ok hrun
    · exact .refl _
    · refine .advance (fun _ => rfl) (fun _ => rfl) (fun _ => rfl) (fun _ => rfl) ?_ fun _ _ => ?_
      · intro op' hop' hsome
        rw [hop] at hop'
        cases hop'
        exact absurd hnone hsome
      · exact orNone_queue (digest_ne_empty hhex hdigest)

/-- The insertion of an operation with its target. -/
theorem since_insert {op : ControllerOperation} {t : OperationTarget}
    (hnew : ∀ old ∈ db.operations, old.name ≠ op.name) (ht : t.operation = op.name) :
    Since db (addTarget t (addOperation op db)) where
  operation := by
    intro name old hold
    refine ⟨old, ?_, rfl, fun _ => rfl⟩
    show Table.get? (db.operations ++ [op]) name = some old
    rw [Table.get?, List.find?_append, ← Table.get?, ← Database.operation?, hold, Option.some_or]
  targets := by
    intro name old hold
    have hother : (t.operation == name) = false := by
      rw [beq_eq_false_iff_ne, ht, ← show old.name = name from Table.get?_name hold]
      exact (hnew old (Table.get?_mem hold)).symm
    show (List.filter _ (db.operationTargets ++ [t])).map snapshot = _
    rw [List.filter_append, List.filter_singleton, hother, cond_false, List.append_nil]
    rfl
  agents := .refl _ _
  benches := .refl _ _
  sites := .refl _ _

/-- An operation that is new in the committed rows, with its target. -/
theorem Kept.insert {op : ControllerOperation} {t : OperationTarget}
    (hnew : ∀ old ∈ db.operations, old.name ≠ op.name) (ht : t.operation = op.name) :
    Since db (addTarget t (addOperation op db)) ∧
      (Schema db → (op.requiredApprovals = 0 → orNone op.commandHash ≠ none) →
        Schema (addTarget t (addOperation op db))) := by
  have hsince := since_insert (t := t) hnew ht
  refine ⟨hsince, fun hschema hop => ⟨?_, ?_⟩⟩
  · intro row hrow hzero
    rcases List.mem_append.mp hrow with hold | hlast
    · exact hschema.queued row hold hzero
    · cases List.mem_singleton.mp hlast
      exact hop hzero
  · intro row hrow
    rcases List.mem_append.mp hrow with hold | hlast
    · obtain ⟨old, hold⟩ := Option.isSome_iff_exists.mp (hschema.linked row hold)
      obtain ⟨old', hold', -⟩ := hsince.operation _ old hold
      rw [hold']
      rfl
    · cases List.mem_singleton.mp hlast
      rw [ht]
      have hmem : op ∈ (addTarget t (addOperation op db)).operations :=
        List.mem_append_right _ (List.mem_singleton_self op)
      cases hget : (addTarget t (addOperation op db)).operation? op.name with
      | none => exact absurd rfl (Table.get?_eq_none.mp hget op hmem)
      | some found => rfl

/-! ## The system -/

/-- Any other transaction: events, approvals, credentials, the bulk scheduler, administration. -/
structure OtherStep (db db' : Database) : Prop where
  since : Since db db'
  schema : Schema db'

inductive Label where
  | create (actor : String) (value : Json) (view : Database) (answer : Except Exc Created)
  | dispatch
  | lease
  | result
  | heartbeat
  | other

variable (R : Runtime) (services : Services) (clockSkew : ℕ)

/-- One commit. A request saw any version that was committed before it ended. -/
inductive Step : List Database → Label → List Database → Prop
  | create {db : Database} {older : List Database} {actor : String} {value : Json}
      {insertion : Insertion} {view : Database} (hview : view ∈ db :: older) :
      Step (db :: older)
        (.create actor value view (serve (createOperation R services actor value insertion) view db).1)
        ((serve (createOperation R services actor value insertion) view db).2 :: db :: older)
  | dispatch {db : Database} {older : List Database} (name : String) (now : DateTime) :
      Step (db :: older) .dispatch
        (Transaction.committed (dispatch R services.commandLifetime name now) db :: db :: older)
  | lease {db : Database} {older : List Database} (agentId : String) (now : DateTime)
      (allowedOperationTypes : Option (List String)) (commandFilter : Candidate → Bool)
      (locked : List String) :
      Step (db :: older) .lease
        (Transaction.committed (leaseCommand R services.commandLifetime clockSkew agentId now
          allowedOperationTypes commandFilter locked) db :: db :: older)
  | result {db : Database} {older : List Database} (body : Json) (receivedAt : DateTime)
      {views : List Database} (hviews : ∀ view ∈ views, view ∈ db :: older) :
      Step (db :: older) .result
        ((Lifecycle.serveResult R body receivedAt views db).2 :: db :: older)
  | heartbeat {db : Database} {older : List Database} (agentId : String) (state : Json)
      (observedAt : DateTime) {view : Database} (hview : view ∈ db :: older) :
      Step (db :: older) .heartbeat
        ((FrappeInventory.serve R agentId state observedAt view db).2 :: db :: older)
  | other {db db' : Database} {older : List Database} (h : OtherStep db db') :
      Step (db :: older) .other (db' :: db :: older)

/-! ## What a request does -/

section Requests

variable {R services} {s s' : Session}

/-! ### Targets -/

/-- The rows a target was resolved from. -/
structure TargetRows (db : Database) (serverAgent bench : String) (managedSite : Option String)
    (t : TargetSnapshot) (agent : ServerAgent) (benchRow : Bench) : Prop where
  getAgent : Table.get? db.agents serverAgent = some agent
  getBench : Table.get? db.benches bench = some benchRow
  agentId : t.agentId = agent.agentId
  benchId : t.benchId = benchRow.benchId
  sameSite : t.managedSite = managedSite
  revision : t.inventoryRevision = agent.inventoryDigest.getD ""
  digest : isSha256 t.inventoryRevision = true
  enabled : t.agentEnabled = true → agent.enabled = true
  domain : t.siteDomain = (managedSite.bind (Table.get? db.sites)).map (·.domain)
  site : ∀ name, managedSite = some name → (Table.get? db.sites name).isSome = true

/-- A target snapshot is only made with a digest as its revision. -/
theorem postInit_digest {t t' : TargetSnapshot} (h : TargetSnapshot.postInit t = .ok t') :
    isSha256 t'.inventoryRevision = true := by
  rw [postInit_eq_ok h]
  obtain ⟨⟨⟩, -, h⟩ := bind_eq_ok.mp h
  obtain ⟨⟨⟩, -, h⟩ := bind_eq_ok.mp h
  obtain ⟨⟨⟩, hdigest, -⟩ := bind_eq_ok.mp h
  exact ensure_eq_ok.mp hdigest

/-- A resolved site is the row of its name. -/
theorem resolveSite_rows {agent : ServerAgent} {serverAgent bench : String}
    {managedSite : Option String} {site : Option ManagedSite}
    (h : resolveSite db agent serverAgent bench managedSite = .ok site) :
    site = managedSite.bind (Table.get? db.sites) ∧
      ∀ name, managedSite = some name → (Table.get? db.sites name).isSome = true := by
  unfold resolveSite at h
  cases managedSite with
  | none =>
    cases h
    exact ⟨rfl, fun name hname => by cases hname⟩
  | some name =>
    dsimp only at h
    split at h
    · cases h
    · rename_i found hfound
      obtain ⟨⟨⟩, -, h⟩ := bind_eq_ok.mp h
      cases h
      refine ⟨hfound.symm, fun name' hname => ?_⟩
      cases hname
      rw [hfound]
      rfl

/-- A resolved target is made from the rows of its agent, its bench and its site. -/
theorem resolveTarget_rows {serverAgent bench : String} {managedSite : Option String}
    {t : TargetSnapshot} (h : resolveTarget R db serverAgent bench managedSite = .ok t) :
    ∃ agent benchRow, TargetRows db serverAgent bench managedSite t agent benchRow := by
  have hresolved := resolveTarget_eq_ok h
  unfold resolveTarget at h
  split at h
  · rename_i agent benchRow hagent hbench
    obtain ⟨⟨⟩, -, h⟩ := bind_eq_ok.mp h
    obtain ⟨⟨⟩, -, h⟩ := bind_eq_ok.mp h
    obtain ⟨agentCaps, -, h⟩ := bind_eq_ok.mp h
    obtain ⟨benchCaps, -, h⟩ := bind_eq_ok.mp h
    obtain ⟨site, hsite, h⟩ := bind_eq_ok.mp h
    have hdigest := postInit_digest h
    obtain ⟨hrow, hexists⟩ := resolveSite_rows hsite
    have ht := postInit_eq_ok h
    refine ⟨agent, benchRow, hagent, hbench, ?_, ?_, hresolved.managedSite, ?_, hdigest, ?_, ?_,
      hexists⟩
    · rw [ht]
    · rw [ht]
    · rw [ht]
    · intro henabled
      rw [ht] at henabled
      simp only [Bool.and_eq_true] at henabled
      exact henabled.1.1
    · rw [ht, hrow]
  · cases h

/-- The revision of a target is the digest its agent has. -/
theorem TargetRows.inventory {serverAgent bench : String} {managedSite : Option String}
    {t : TargetSnapshot} {agent : ServerAgent} {benchRow : Bench}
    (h : TargetRows db serverAgent bench managedSite t agent benchRow) :
    some t.inventoryRevision = agent.inventoryDigest := by
  have hdigest := h.digest
  rw [h.revision] at hdigest ⊢
  cases hinventory : agent.inventoryDigest with
  | none =>
    rw [hinventory] at hdigest
    cases hdigest
  | some digest => rfl

/-- Later versions resolve a target with the same identities. -/
theorem TargetRows.since {serverAgent bench : String} {managedSite : Option String}
    {t t' : TargetSnapshot} {agent agent' : ServerAgent} {benchRow benchRow' : Bench}
    (h : TargetRows db serverAgent bench managedSite t agent benchRow)
    (h' : TargetRows db' serverAgent bench managedSite t' agent' benchRow')
    (hsince : Since db db') : t'.agentId = t.agentId ∧ t'.benchId = t.benchId := by
  obtain ⟨later, hlater, hidentity⟩ := hsince.agents _ agent h.getAgent
  obtain ⟨laterBench, hlaterBench, hbenchId⟩ := hsince.benches _ benchRow h.getBench
  rw [h'.getAgent] at hlater
  rw [h'.getBench] at hlaterBench
  cases hlater
  cases hlaterBench
  have hagentId : agent'.agentId = agent.agentId := congrArg Prod.fst hidentity
  exact ⟨by rw [h'.agentId, h.agentId, hagentId], by rw [h'.benchId, h.benchId, hbenchId]⟩

/-! ### The repeated authoring -/

/-- What "the target is active, the same features and policies are in force" says of a version:
the user may author, the gate is open, the target resolves and is active, and the policy of the
first request is selected. -/
structure InForce (R : Runtime) (services : Services) (actor : String)
    (request : OperationRequest) (first : AuthoredOperation) (target : TargetSnapshot)
    (db : Database) : Prop where
  author : requireAuthor db actor = .ok ()
  feature : requireOperation R db (targetEnvironment db request.serverAgent request.managedSite)
    request.operationType (R.dumps (.obj request.payload)) none = .ok ()
  resolved : resolveTarget R db request.serverAgent request.bench request.managedSite = .ok target
  active : (target.agentEnabled && !(target.managedSite.isSome && !target.siteActive)) = true
  policy : ∀ authorization, services.validatePayload request.operationType request.payload =
    .ok authorization → ∃ rule, selectPolicy db target request.operationType authorization = .ok rule ∧
      rule.map (·.name) = first.approvalPolicy ∧
      (rule.map (·.minimumApprovals)).getD 0 = first.requiredApprovals

/-- The first request's authoring, with its target. -/
theorem authored_target {validator : PayloadValidator} {request : OperationRequest}
    {actor : String} {first : AuthoredOperation}
    (h : authored R validator request actor db = .ok first) :
    ∃ target, resolveTarget R db request.serverAgent request.bench request.managedSite = .ok target ∧
      first.siteDomain = target.siteDomain ∧ first.inventoryRevision = target.inventoryRevision ∧
      target.capabilities.contains request.operationType = true := by
  simp only [authored, bind_eq_ok, ensure_eq_ok, exists_const, Prod.exists, pure, Except.pure,
    Except.ok.injEq] at h
  obtain ⟨-, uuid, -, -, target, htarget, -, hcaps, -, -, -, -, -, -, -, -, -, -, -, rfl⟩ := h
  exact ⟨target, htarget, rfl, rfl, hcaps⟩

/-- The repeat derives the same operation where the target still has the revision, the domain and
the capability. -/
theorem authored_again {request : OperationRequest} {actor : String} {view : Database}
    {first : AuthoredOperation} {target : TargetSnapshot} (hsince : Since view db)
    (hfirst : authored R services.validatePayload request actor view = .ok first)
    (hforce : InForce R services actor request first target db)
    (hrevision : target.inventoryRevision = first.inventoryRevision)
    (hdomain : target.siteDomain = first.siteDomain)
    (hsupported : target.capabilities.contains request.operationType = true) :
    authored R services.validatePayload request actor db = .ok first := by
  simp only [authored, bind_eq_ok, ensure_eq_ok, exists_const, Prod.exists, pure, Except.pure,
    Except.ok.injEq] at hfirst ⊢
  obtain ⟨hactor, uuid, huuid, htype, target₀, htarget₀, -, -, authorization, hauthorization, u,
    hcheck, rule₀, hrule₀, payloadJson, payloadHash, hpayload, previewOf, hpreview, rfl⟩ := hfirst
  obtain ⟨agent₀, bench₀, hrows₀⟩ := resolveTarget_rows htarget₀
  obtain ⟨agent, bench, hrows⟩ := resolveTarget_rows hforce.resolved
  obtain ⟨hagentId, hbenchId⟩ := hrows₀.since hrows hsince
  have hresolved₀ := resolveTarget_eq_ok htarget₀
  have hresolved := resolveTarget_eq_ok hforce.resolved
  have hsite : target.managedSite = target₀.managedSite :=
    hresolved.managedSite.trans hresolved₀.managedSite.symm
  obtain ⟨rule, hrule, hname, hrequired⟩ := hforce.policy authorization hauthorization
  have hcheck' : checkAuthorization target authorization = checkAuthorization target₀ authorization := by
    unfold checkAuthorization
    rw [hsite, hdomain]
  have hkey : targetKey R uuid target = targetKey R uuid target₀ := by
    unfold targetKey
    rw [hagentId, hbenchId, hsite, hrevision]
  refine ⟨hactor, uuid, huuid, htype, target, hforce.resolved, hforce.active, hsupported,
    authorization, hauthorization, u, hcheck'.trans hcheck, rule, hrule, payloadJson, payloadHash,
    hpayload, previewOf, hpreview, ?_⟩
  rw [hname, hrequired, hkey, hagentId, hbenchId, hsite, hrevision, hdomain, hresolved.serverAgent,
    hresolved.bench, hresolved₀.serverAgent, hresolved₀.bench]

/-! ### The first request -/

/-- A new request retries nothing. -/
theorem request_retryOf {value : Json} {request : OperationRequest}
    (h : OperationRequests.request value = .ok request) : request.retryOf = none := by
  unfold OperationRequests.request at h
  split at h
  · obtain ⟨⟨⟩, -, h⟩ := bind_eq_ok.mp h
    obtain ⟨operationId, -, h⟩ := bind_eq_ok.mp h
    obtain ⟨operationType, -, h⟩ := bind_eq_ok.mp h
    obtain ⟨serverAgent, -, h⟩ := bind_eq_ok.mp h
    obtain ⟨bench, -, h⟩ := bind_eq_ok.mp h
    obtain ⟨site, -, h⟩ := bind_eq_ok.mp h
    split at h
    · cases h
      rfl
    · cases h
  · cases h

/-- A request is accepted exactly by these steps: the author, the request, its checks over the view,
its authoring, the insertion, and the dispatch where no approval is needed. -/
theorem createOperation_eq_ok {actor : String} {value : Json} {insertion : Insertion}
    {created : Created} {s s' : Session} :
    createOperation R services actor value insertion s = .ok created s' ↔
      requireAuthor s.view actor = .ok () ∧ ∃ request, OperationRequests.request value = .ok request ∧
        checkRequest R services request s.view = .ok () ∧ ∃ first,
        authored R services.validatePayload request actor s.view = .ok first ∧ ∃ s₁ requested,
        create R actor first insertion s = .ok () s₁ ∧
        enqueueIfApproved R services.commandLifetime first insertion.now s₁ = .ok requested s' ∧
        created = { operationId := first.operationId, state := requested.state
                    approvalStatus := first.approvalStatus
                    requiredApprovals := first.requiredApprovals
                    payloadHash := first.payloadHash } := by
  simp only [createOperation, author, bind_apply_eq_ok, asValidation_eq_ok, read_eq_ok, query_eq_ok]
  constructor
  · rintro ⟨⟨⟩, s₁, ⟨hauthor, rfl⟩, request, s₂, ⟨hrequest, rfl⟩, ⟨⟩, s₃, ⟨hcheck, rfl⟩, first, s₄,
      ⟨first', s₅, ⟨hauthored, rfl⟩, ⟨⟩, s₆, hcreate, hreturn⟩, requested, s₇, henqueue, hlast⟩
    cases hreturn
    cases hlast
    exact ⟨hauthor, request, hrequest, hcheck, first, hauthored, s₄, requested, hcreate, henqueue, rfl⟩
  · rintro ⟨hauthor, request, hrequest, hcheck, first, hauthored, s₁, requested, hcreate, henqueue, rfl⟩
    exact ⟨(), s, ⟨hauthor, rfl⟩, request, s, ⟨hrequest, rfl⟩, (), s, ⟨hcheck, rfl⟩, first, s₁,
      ⟨first, s, ⟨hauthored, rfl⟩, (), s₁, hcreate, rfl⟩, requested, s', henqueue, rfl⟩

/-- To the retries of other operations, a creation is one of the other transactions. -/
theorem otherStep_createOperation {actor : String} {value : Json} {insertion : Insertion}
    {created : Created} {s s' : Session} (hunique : Table.Unique s.current.operations)
    (h : createOperation R services actor value insertion s = .ok created s') :
    OperationRequests.OtherStep s.current s'.current := by
  obtain ⟨-, request, hrequest, -, first, hauthored, s₁, requested, hcreate, henqueue, -⟩ :=
    createOperation_eq_ok.mp h
  have hauthor : author R services.validatePayload request actor insertion s = .ok first s₁ := by
    refine bind_apply_eq_ok.mpr ⟨first, s, read_eq_ok.mpr ⟨hauthored, rfl⟩, ?_⟩
    exact bind_apply_eq_ok.mpr ⟨(), s₁, hcreate, rfl⟩
  exact .author hunique (request_retryOf hrequest) hauthor rfl henqueue

/-- The comparison with the stored operation reads authored columns only. -/
theorem sameOperation_congr {a : AuthoredOperation} {op op' : ControllerOperation}
    (h : authoring op' = authoring op) : sameOperation a op' = sameOperation a op :=
  authoring_congr (sameOperation a) (fun _ => rfl) h

/-- The comparison with the stored target reads its snapshots only. -/
theorem sameTarget_congr {a : AuthoredOperation} {t t' : OperationTarget} (ha : a.retryOf = none)
    (h : snapshot t' = snapshot t) : sameTarget a db' t' = sameTarget a db t := by
  have hretried : ∀ db, retriedTarget a.retryOf db = none := by
    intro db
    rw [ha]
    rfl
  unfold sameTarget
  rw [hretried, hretried]
  have hfields := congrArg (fun t : OperationTarget => (t.targetKey, t.serverAgent, t.bench,
    t.managedSite, t.siteDomainSnapshot, t.operationTypeSnapshot, t.payloadHashSnapshot,
    t.inventoryRevisionSnapshot, t.retryOf)) h
  simp only [snapshot, Prod.mk.injEq] at hfields
  obtain ⟨h₁, h₂, h₃, h₄, h₅, h₆, h₇, h₈, h₉⟩ := hfields
  rw [h₁, h₂, h₃, h₄, h₅, h₆, h₇, h₈, h₉]

/-- The target of an operation is the first of its targets. -/
theorem targetOf?_eq (db : Database) (name : String) :
    targetOf? db name = (targetsOf db name).head? := by
  unfold targetOf? targetsOf
  rw [List.head?_filter]

/-- The target of an operation is found later, with the same snapshots. -/
theorem Since.target (h : Since db db') {name : String} {op : ControllerOperation}
    {t : OperationTarget} (hop : db.operation? name = some op)
    (ht : targetOf? db name = some t) :
    ∃ t', targetOf? db' name = some t' ∧ snapshot t' = snapshot t := by
  have hmap := congrArg List.head? (h.targets name op hop)
  rw [List.head?_map, List.head?_map, ← targetOf?_eq, ← targetOf?_eq, ht, Option.map_some,
    Option.map_eq_some_iff] at hmap
  exact hmap

/-- The command of an operation that needs no approval was fixed over some earlier version. -/
def Commanded (R : Runtime) (lifetime : ℕ) (name : String) (db : Database) : Prop :=
  ∃ base now row operationId fields payloadHash t digest op, Since base db ∧
    checked R base name = .ok (row, operationId, fields, payloadHash, t) ∧
    truthy row.op.bulkParent = false ∧
    immutableCommandHash R (command lifetime now row operationId fields payloadHash []) =
      .ok digest ∧
    digest ≠ "" ∧ db.operation? name = some op ∧ op.commandHash = some digest

/-- A fixed command stays fixed. -/
theorem Commanded.since {name : String} (h : Commanded R lifetime name db) (hsince : Since db db') :
    Commanded R lifetime name db' := by
  obtain ⟨base, now, row, operationId, fields, payloadHash, t, digest, op, hbase, hchecked, hbulk,
    hdigest, hne, hop, hhash⟩ := h
  obtain ⟨op', hop', -, hkept⟩ := hsince.operation name op hop
  have hsome : orNone op.commandHash ≠ none := by
    rw [orNone_eq_some.mpr ⟨hhash, hne⟩]
    exact Option.some_ne_none _
  exact ⟨base, now, row, operationId, fields, payloadHash, t, digest, op', hbase.trans hsince,
    hchecked, hbulk, hdigest, hne, hop', (hkept hsome).trans hhash⟩

/-- What an accepted request left behind, for good. -/
structure Accepted (R : Runtime) (services : Services) (actor : String)
    (request : OperationRequest) (view : Database) (first : AuthoredOperation) (db : Database) :
    Prop where
  authored : authored R services.validatePayload request actor view = .ok first
  since : Since view db
  stored : ∃ op t, db.operation? first.operationId = some op ∧ sameOperation first op = true ∧
    targetOf? db first.operationId = some t ∧ sameTarget first db t = true
  command : first.requiredApprovals = 0 →
    Commanded R services.commandLifetime first.operationId db

/-- What an accepted request left behind is there in every later version. -/
theorem Accepted.later {actor : String} {request : OperationRequest} {view : Database}
    {first : AuthoredOperation} (hretry : request.retryOf = none)
    (h : Accepted R services actor request view first db) (hsince : Since db db') :
    Accepted R services actor request view first db' where
  authored := h.authored
  since := h.since.trans hsince
  stored := by
    obtain ⟨op, t, hop, hsame, ht, htarget⟩ := h.stored
    obtain ⟨op', hop', hauthoring, -⟩ := hsince.operation _ op hop
    obtain ⟨t', ht', hsnapshot⟩ := hsince.target hop ht
    have hnone : first.retryOf = none := (authored_eq_ok h.authored).retryOf.trans hretry
    exact ⟨op', t', hop', (sameOperation_congr hauthoring).trans hsame, ht',
      (sameTarget_congr hnone hsnapshot).trans htarget⟩
  command := fun hzero => (h.command hzero).since hsince

/-- The approval claims of an operation that needs no approval. -/
theorem approvalClaims_of_zero {op : ControllerOperation} {t : OperationTarget}
    {claims : List Json} (hzero : op.requiredApprovals = 0) :
    approvalClaims db op t = .ok claims ↔ truthy op.bulkParent = false ∧
      (approvals db op.name).any (·.decision == .rejected) = false ∧
      op.approvalStatus = .notRequired ∧ claims = [] := by
  unfold approvalClaims
  cases hbulk : truthy op.bulkParent with
  | false =>
    rw [if_neg Bool.false_ne_true]
    simp only [singleApprovalClaims, bind_eq_ok, ensure_eq_ok, exists_const, hzero, if_true,
      pure, Except.pure, Except.ok.injEq, Bool.not_eq_true', beq_iff_eq, true_and]
    exact ⟨fun ⟨h₁, h₂, h₃⟩ => ⟨h₁, h₂, h₃.symm⟩, fun ⟨h₁, h₂, h₃⟩ => ⟨h₁, h₂, h₃.symm⟩⟩
  | true =>
    rw [if_pos rfl]
    simp only [Bool.true_eq_false, false_and, iff_false]
    intro h
    -- a bulk child needs at least one approval
    unfold bulkApprovalClaims at h
    split at h
    · cases h
    · simp only [bind_eq_ok, ensure_eq_ok, exists_const, Bool.and_eq_true, decide_eq_true_eq,
        bulkBinding, beq_iff_eq] at h
      obtain ⟨⟨⟨-, hrequired⟩, -⟩, -, -, ⟨⟨hone, -⟩, -⟩, -⟩ := h
      omega

/-- A dispatch right after the insertion inserts the queued operation. -/
theorem queued_insert (op : ControllerOperation) (t : OperationTarget) {text : Text}
    {digest : String} (hschema : Schema db) (hnew : ∀ old ∈ db.operations, old.name ≠ op.name)
    (ht : t.operation = op.name) :
    queued op.name text digest (addTarget t (addOperation op db)) =
      addTarget { t with state := .queued } (addOperation (queue text digest op) db) := by
  have hoperations : Table.setValue op.name (queue text digest) (db.operations ++ [op]) =
      db.operations ++ [queue text digest op] := by
    have hops : (addOperation op db).operations = db.operations ++ [op] := rfl
    exact OperationRequests.operations_queued hops hnew
  have htargets : Table.update (fun t : OperationTarget => t.operation = op.name)
      (fun t => { t with state := .queued }) (db.operationTargets ++ [t]) =
      db.operationTargets ++ [{ t with state := .queued }] := by
    have hold : ∀ row ∈ db.operationTargets, ¬ row.operation = op.name := by
      intro row hrow hname
      obtain ⟨old, hold⟩ := Option.isSome_iff_exists.mp (hschema.linked row hrow)
      exact hnew old (Table.get?_mem hold) ((Table.get?_name hold).trans hname)
    rw [Table.update_append, Table.update_of_none _ _ hold, Table.update_cons, if_pos ht,
      Table.update_nil]
  unfold queued Database.advance Database.setOperation Database.setOperationTarget addTarget
    addOperation
  dsimp only
  rw [hoperations, htargets]

/-- The envelope of an operation that needs no approval. -/
theorem envelope_of_zero {name : String} {now : DateTime} {env : List (String × Json)}
    (h : envelope R lifetime db name now = .ok env)
    (hzero : ∀ op, db.operation? name = some op → op.requiredApprovals = 0) :
    ∃ row operationId fields payloadHash t,
      checked R db name = .ok (row, operationId, fields, payloadHash, t) ∧
      db.operation? name = some row.op ∧ truthy row.op.bulkParent = false ∧
      (approvals db name).any (·.decision == .rejected) = false ∧
      row.op.approvalStatus = .notRequired ∧
      env = command lifetime now row operationId fields payloadHash [] := by
  simp only [envelope, bind_eq_ok, Prod.exists, pure, Except.pure, Except.ok.injEq] at h
  obtain ⟨row, operationId, fields, payloadHash, t, hchecked, claims, hclaims, rfl⟩ := h
  obtain ⟨hrow, -⟩ := checked_eq_ok hchecked
  obtain ⟨op, agent, bench, hop, -, -, hrowEq⟩ := CommandSnapshot.operationRow?_eq.mp hrow
  have hrowOp : row.op = op := by rw [hrowEq]
  have hname : row.op.name = name := by
    rw [hrowOp]
    exact Table.get?_name hop
  obtain ⟨hbulk, hrejected, hstatus, rfl⟩ :=
    (approvalClaims_of_zero (hrowOp ▸ hzero op hop)).mp hclaims
  rw [hname] at hrejected
  exact ⟨row, operationId, fields, payloadHash, t, hchecked, hrowOp ▸ hop, hbulk, hrejected, hstatus,
    rfl⟩

/-- The approvals needed are compared. -/
theorem requiredApprovals_of_same {a : AuthoredOperation} {op : ControllerOperation}
    (h : sameOperation a op = true) : op.requiredApprovals = a.requiredApprovals := by
  simp only [sameOperation, Bool.and_eq_true, beq_iff_eq] at h
  exact h.1.1.1.2

/-- The stored rows agree with what a request derives. -/
theorem existingIsIdentical_eq_ok {a : AuthoredOperation} {op : ControllerOperation} {u : Unit} :
    existingIsIdentical a op db = .ok u ↔ sameOperation a op = true ∧
      ∃ t, targetOf? db a.operationId = some t ∧ sameTarget a db t = true := by
  simp only [existingIsIdentical, bind_eq_ok, ensure_eq_ok, exists_const]
  refine and_congr_right fun _ => ?_
  cases targetOf? db a.operationId with
  | none => simp
  | some t => simp

/-! The documents of a request, found again. -/

/-- A new operation is found by its name. -/
theorem operation?_insert (op : ControllerOperation) (t : OperationTarget)
    (hnew : ∀ old ∈ db.operations, old.name ≠ op.name) :
    (addTarget t (addOperation op db)).operation? op.name = some op := by
  show Table.get? (db.operations ++ [op]) op.name = some op
  have hnone : Table.get? db.operations op.name = none := Table.get?_eq_none.mpr hnew
  rw [Table.get?, List.find?_append, ← Table.get?, hnone, Option.none_or, List.find?_cons]
  simp [Named.name]

/-- The target of a new operation is found by its name. -/
theorem targetOf?_insert {op : ControllerOperation} {t : OperationTarget} (hschema : Schema db)
    (hnew : ∀ old ∈ db.operations, old.name ≠ op.name) (ht : t.operation = op.name) :
    targetOf? (addTarget t (addOperation op db)) op.name = some t := by
  have hold : db.operationTargets.find? (fun t => t.operation == op.name) = none := by
    rw [List.find?_eq_none]
    intro row hrow hname
    obtain ⟨old, hold⟩ := Option.isSome_iff_exists.mp (hschema.linked row hrow)
    exact hnew old (Table.get?_mem hold) ((Table.get?_name hold).trans (beq_iff_eq.mp hname))
  show (db.operationTargets ++ [t]).find? (fun t => t.operation == op.name) = some t
  rw [List.find?_append, hold, Option.none_or, List.find?_cons, beq_iff_eq.mpr ht]

/-- The inserted operation agrees with what was authored. -/
theorem sameOperation_document (a : AuthoredOperation) (now : DateTime) :
    sameOperation a (operationDocument a now) = true := by
  simp [sameOperation, operationDocument]

/-- The inserted target agrees with what was authored. -/
theorem sameTarget_document {a : AuthoredOperation} (ha : a.retryOf = none) (name : String)
    (base : Database) : sameTarget a db (targetDocument a name base) = true := by
  have hretried : ∀ db, retriedTarget a.retryOf db = none := by
    intro db
    rw [ha]
    rfl
  simp [sameTarget, targetDocument, hretried]

/-- The documents of a request that needs no approval, queued. -/
theorem queued_of_insert (hhex : ∀ text, isSha256 (R.sha256 text) = true)
    {first : AuthoredOperation} {now now' : DateTime} {name digest : String} {text : Text}
    {base : Database} {env : List (String × Json)} (hschema : Schema db)
    (hnew : ∀ old ∈ db.operations, old.name ≠ first.operationId) (hnone : first.retryOf = none)
    (hrequired : first.requiredApprovals = 0)
    (henv : envelope R lifetime (addTarget (targetDocument first name base)
      (addOperation (operationDocument first now) db)) first.operationId now' = .ok env)
    (hdigest : immutableCommandHash R env = .ok digest) :
    let db' := queued first.operationId text digest (addTarget (targetDocument first name base)
      (addOperation (operationDocument first now) db))
    Since db db' ∧ Schema db' ∧
      (∃ op t, db'.operation? first.operationId = some op ∧ sameOperation first op = true ∧
        targetOf? db' first.operationId = some t ∧ sameTarget first db' t = true) ∧
      Commanded R lifetime first.operationId db' := by
  intro db'
  have hne := digest_ne_empty hhex hdigest
  have hoperation : (addTarget (targetDocument first name base)
      (addOperation (operationDocument first now) db)).operation? first.operationId =
      some (operationDocument first now) :=
    operation?_insert (operationDocument first now) _ hnew
  -- inserting and queueing lose nothing, one after the other
  have hinsert : Since db (addTarget (targetDocument first name base)
      (addOperation (operationDocument first now) db)) := since_insert hnew rfl
  have hqueue : Since (addTarget (targetDocument first name base)
      (addOperation (operationDocument first now) db)) db' := by
    refine .advance (fun _ => rfl) (fun _ => rfl) (fun _ => rfl) (fun _ => rfl) ?_
    intro op hop hsome
    rw [hoperation] at hop
    cases hop
    exact absurd rfl hsome
  -- in the end it is as if the queued operation had been inserted
  have hrow : db' = addTarget { targetDocument first name base with state := .queued }
      (addOperation (queue text digest (operationDocument first now)) db) :=
    queued_insert (operationDocument first now) _ hschema hnew rfl
  have hnew' : ∀ old ∈ db.operations,
      old.name ≠ (queue text digest (operationDocument first now)).name := hnew
  have hoperation' : db'.operation? first.operationId =
      some (queue text digest (operationDocument first now)) := by
    rw [hrow]
    exact operation?_insert _ _ hnew'
  refine ⟨hinsert.trans hqueue, ?_, ⟨_, { targetDocument first name base with state := .queued },
    hoperation', sameOperation_document first now, ?_, sameTarget_document hnone name base⟩, ?_⟩
  · rw [hrow]
    refine (Kept.insert hnew' rfl).2 hschema fun _ => ?_
    exact orNone_queue hne
  · rw [hrow]
    exact targetOf?_insert hschema hnew' rfl
  · obtain ⟨row, operationId, fields, payloadHash, t, hchecked, -, hbulk, -, -, rfl⟩ :=
      envelope_of_zero henv fun op hop => by
        rw [hoperation] at hop
        cases hop
        exact hrequired
    exact ⟨_, now', row, operationId, fields, payloadHash, t, digest, _, hqueue, hchecked, hbulk,
      hdigest, hne, hoperation', rfl⟩

/-- An accepted request keeps everything, and leaves behind what a repeat compares with. -/
theorem accepted_of_create (hhex : ∀ text, isSha256 (R.sha256 text) = true) {actor : String}
    {value : Json} {insertion : Insertion} {view : Database} {created : Created}
    (hview : Schema view) (hschema : Schema db) (hsince : Since view db)
    (h : createOperation R services actor value insertion ⟨view, db⟩ = .ok created s') :
    Since db s'.current ∧ Schema s'.current ∧ ∃ request first,
      OperationRequests.request value = .ok request ∧ created.operationId = first.operationId ∧
      Accepted R services actor request view first s'.current := by
  obtain ⟨-, request, hrequest, -, first, hauthored, s₁, requested, hcreate, henqueue, rfl⟩ :=
    createOperation_eq_ok.mp h
  have hnone : first.retryOf = none :=
    (authored_eq_ok hauthored).retryOf.trans (request_retryOf hrequest)
  obtain ⟨-, henqueue⟩ := enqueueIfApproved_eq_ok henqueue
  rcases create_eq_ok hcreate with ⟨op, hop, hidentical, rfl⟩ | ⟨hfresh, -, hfree, base, rfl⟩
  · -- found: the snapshot has the operation with its target, and the command if it was queued
    obtain ⟨hsame, t, ht, htarget⟩ := existingIsIdentical_eq_ok.mp hidentical
    have hzero := requiredApprovals_of_same hsame
    obtain ⟨op', hop', hauthoring, hkept⟩ := hsince.operation _ op hop
    obtain ⟨t', ht', hsnapshot⟩ := hsince.target hop ht
    have hstored : ∃ op t, db.operation? first.operationId = some op ∧
        sameOperation first op = true ∧ targetOf? db first.operationId = some t ∧
        sameTarget first db t = true :=
      ⟨op', t', hop', (sameOperation_congr hauthoring).trans hsame, ht',
        (sameTarget_congr hnone hsnapshot).trans htarget⟩
    rcases henqueue with ⟨hrequired, rfl⟩ | ⟨hrequired, env, henqueue⟩
    · exact ⟨.refl _, hschema, request, first, hrequest, rfl, hauthored, hsince, hstored,
        fun h => by omega⟩
    · have hhash : orNone op.commandHash ≠ none :=
        hview.queued op (Table.get?_mem hop) (hzero.trans hrequired)
      obtain ⟨henv, op₂, digest, hop₂, hdigest, ⟨-, hqueued, rfl⟩ | ⟨text, -, hunqueued, -⟩⟩ :=
        enqueueApprovedOperation_eq_ok henqueue
      · rw [show op₂ = op from Option.some.inj (hop₂.symm.trans hop)] at hqueued
        obtain ⟨row, operationId, fields, payloadHash, t₂, hchecked, -, hbulk, -, -, rfl⟩ :=
          envelope_of_zero henv fun row hrow => by
            rw [show row = op' from Option.some.inj (hrow.symm.trans hop'),
              requiredApprovals_of_same ((sameOperation_congr hauthoring).trans hsame), hrequired]
        exact ⟨.refl _, hschema, request, first, hrequest, rfl, hauthored, hsince, hstored,
          fun _ => ⟨db, insertion.now, row, operationId, fields, payloadHash, t₂, digest, op', .refl db,
            hchecked, hbulk, hdigest, digest_ne_empty hhex hdigest, hop',
            (hkept hhash).trans (orNone_eq_some.mp hqueued).1⟩⟩
      · rw [show op₂ = op from Option.some.inj (hop₂.symm.trans hop)] at hunqueued
        exact absurd hunqueued hhash
  · -- inserted: the rows are the documents, and the queued command is theirs
    have hnew : ∀ old ∈ db.operations,
        old.name ≠ (operationDocument first insertion.now).name :=
      fun old hold => ne_name_of_freeColumns hfree hold
    obtain ⟨hsinceInsert, hschemaInsert⟩ :=
      Kept.insert (t := targetDocument first insertion.targetName base) hnew rfl
    rcases henqueue with ⟨hrequired, rfl⟩ | ⟨hrequired, env, henqueue⟩
    · refine ⟨hsinceInsert, hschemaInsert hschema fun hzero => ?_, request, first, hrequest, rfl,
        hauthored, hsince.trans hsinceInsert, ?_, fun hzero => by omega⟩
      · have hzero : first.requiredApprovals = 0 := hzero
        omega
      · exact ⟨_, _, operation?_insert _ _ hnew, sameOperation_document first _,
          targetOf?_insert hschema hnew rfl, sameTarget_document hnone _ _⟩
    · obtain ⟨henv, op, digest, hop, hdigest, ⟨hqueued, -, -⟩ | ⟨text, -, -, rfl⟩⟩ :=
        enqueueApprovedOperation_eq_ok henqueue
      · -- the snapshot sees the operation that was just inserted, which waits
        have hwaits : op = operationDocument first insertion.now := by
          have hget := operation?_insert (operationDocument first insertion.now)
            (targetDocument first insertion.targetName base) (Table.get?_eq_none.mp hfresh)
          exact Option.some.inj (hop.symm.trans hget)
        have hstate : op.state = .awaitingApproval := by
          rw [hwaits]
          exact (authored_eq_ok hauthored).state
        rw [hstate] at hqueued
        cases hqueued
      · obtain ⟨hkept, hschemaQueued, hstored, hcommanded⟩ :=
          queued_of_insert hhex hschema hnew hnone hrequired henv hdigest
        exact ⟨hkept, hschemaQueued, request, first, hrequest, rfl, hauthored, hsince.trans hkept,
          hstored, fun _ => hcommanded⟩

/-! ### The repeated dispatch -/

/-- The checks before the approvals, which read the rows of one operation. -/
theorem checked_iff {name operationId payloadHash : String} {row : OperationRow}
    {fields : List (String × Json)} {t : OperationTarget} :
    checked R db name = .ok (row, operationId, fields, payloadHash, t) ↔
      operationRow? db name = some row ∧ row.agentEnabled = true ∧ row.agentDraining = false ∧
      (row.op.protocolVersion = "1.0" ∧ row.audience = "frappe-controller") ∧
      R.uuid row.op.operationId = some operationId ∧ operationId = row.op.operationId.toLower ∧
      endsWith row.op.idempotencyKey operationId = true ∧
      payload R row.op = .ok (fields, payloadHash) ∧ target db row.op.name = .ok t ∧
      (t.serverAgent == row.op.serverAgent && t.bench == row.op.bench
        && t.managedSite == row.op.managedSite && t.siteDomainSnapshot == row.siteDomain
        && t.operationTypeSnapshot == row.op.operationType
        && t.payloadHashSnapshot == row.op.payloadHash) = true ∧
      ∀ revision, orNone t.inventoryRevisionSnapshot = some revision →
        isSha256 revision = true ∧ some revision = row.currentInventoryRevision := by
  constructor
  · intro h
    obtain ⟨hrow, ht⟩ := checked_eq_ok h
    simp only [checked, hrow, bind_eq_ok, ensure_eq_ok, exists_const, Bool.not_eq_true',
      Bool.and_eq_true, beq_iff_eq] at h
    obtain ⟨henabled, hdraining, hprotocol, h⟩ := h
    -- an id that is no UUID raises before the remaining checks
    cases huuid : R.uuid row.op.operationId with
    | none =>
      rw [huuid] at h
      cases h
    | some uuid =>
      simp only [huuid, bind_eq_ok, ensure_eq_ok, exists_const, beq_iff_eq, Prod.exists,
        Bool.and_eq_true] at h
      obtain ⟨hcanonical, hbound, fields', payloadHash', hpayload, t', ht', hsame, h⟩ := h
      have hlast : (row, uuid, fields', payloadHash', t') =
            (row, operationId, fields, payloadHash, t) ∧
          ∀ revision, orNone t'.inventoryRevisionSnapshot = some revision →
            isSha256 revision = true ∧ some revision = row.currentInventoryRevision := by
        -- the revision is compared only where the target has one
        cases hsnapshot : orNone t'.inventoryRevisionSnapshot with
        | none =>
          rw [hsnapshot] at h
          exact ⟨Except.ok.inj h, fun revision hrevision => by cases hrevision⟩
        | some revision =>
          simp only [hsnapshot, bind_eq_ok, ensure_eq_ok, exists_const, Bool.and_eq_true,
            beq_iff_eq] at h
          refine ⟨Except.ok.inj h.2, fun revision' hrevision => ?_⟩
          cases hrevision
          exact h.1
      obtain ⟨heq, hrevision⟩ := hlast
      cases heq
      refine ⟨hrow, henabled, hdraining, hprotocol, rfl, hcanonical, hbound, hpayload, ht, ?_,
        hrevision⟩
      simpa only [Bool.and_eq_true, beq_iff_eq] using hsame
  · rintro ⟨hrow, henabled, hdraining, hprotocol, huuid, hcanonical, hbound, hpayload, ht, hsame,
      hrevision⟩
    simp only [checked, hrow, bind_eq_ok, ensure_eq_ok, exists_const, Bool.not_eq_true',
      Bool.and_eq_true, beq_iff_eq, huuid, Prod.exists]
    refine ⟨henabled, hdraining, hprotocol, hcanonical, hbound, fields, payloadHash, hpayload, t,
      ht, by simpa only [Bool.and_eq_true, beq_iff_eq] using hsame, ?_⟩
    cases hsnapshot : orNone t.inventoryRevisionSnapshot with
    | none => rfl
    | some revision =>
      simp only [bind_eq_ok, ensure_eq_ok, exists_const, Bool.and_eq_true, beq_iff_eq]
      exact ⟨hrevision revision hsnapshot, rfl⟩

/-- A command without its validity depends on the identities in its row only. -/
theorem immutableCommand_congr {now now' : DateTime} {row row' : OperationRow}
    {operationId payloadHash : String} {fields : List (String × Json)} {claims : List Json}
    (hop : authoring row'.op = authoring row.op) (hagent : row'.agentId = row.agentId)
    (haudience : row'.audience = row.audience) (hbench : row'.benchId = row.benchId)
    (hsite : row'.siteId = row.siteId) :
    immutableCommandHash R (command lifetime now' row' operationId fields payloadHash claims) =
      immutableCommandHash R (command lifetime now row operationId fields payloadHash claims) := by
  have hkey : row'.op.idempotencyKey = row.op.idempotencyKey :=
    authoring_congr (·.idempotencyKey) (fun _ => rfl) hop
  have htype : row'.op.operationType = row.op.operationType :=
    authoring_congr (·.operationType) (fun _ => rfl) hop
  have hactor : row'.op.requestedBy = row.op.requestedBy :=
    authoring_congr (·.requestedBy) (fun _ => rfl) hop
  have hcommand : immutableCommand (command lifetime now' row' operationId fields payloadHash claims)
      = immutableCommand (command lifetime now row operationId fields payloadHash claims) := by
    simp [immutableCommand, command, Json.without, hkey, htype, hactor, hagent, haudience, hbench,
      hsite]
  unfold immutableCommandHash
  rw [hcommand]

/-- The target of an operation is found exactly where it is its only one. -/
theorem target_eq_ok {name : String} {t : OperationTarget} :
    target db name = .ok t ↔ targetsOf db name = [t] := by
  unfold target targetsOf
  split
  · rename_i t' hrows
    rw [hrows, Except.ok.injEq, List.cons.injEq, and_iff_left rfl]
  · rename_i hrows
    constructor
    · intro h
      cases h
    · intro h
      exact absurd h (hrows t)

/-- A row that keeps its site keeps the id of it. -/
theorem siteId_since {base : Database} (hsince : Since base db) {site : Option String}
    (hexists : site.isSome = true → (site.bind (Table.get? base.sites)).isSome = true) :
    (site.bind (Table.get? db.sites)).map (·.siteId) =
      (site.bind (Table.get? base.sites)).map (·.siteId) := by
  cases site with
  | none => rfl
  | some site =>
    obtain ⟨found, hfound⟩ := Option.isSome_iff_exists.mp (hexists rfl)
    rw [Option.bind_some] at hfound
    obtain ⟨found', hfound', hid⟩ := hsince.sites site found hfound
    rw [Option.bind_some, Option.bind_some, hfound, hfound', Option.map_some, Option.map_some, hid]

/-- The one target of an operation is still its only one. -/
theorem target_since {base : Database} (hsince : Since base db) {name : String}
    {op : ControllerOperation} {t : OperationTarget} (hop : base.operation? name = some op)
    (ht : target base name = .ok t) : ∃ t', target db name = .ok t' ∧ snapshot t' = snapshot t := by
  have htargets := hsince.targets name op hop
  rw [target_eq_ok.mp ht, List.map_singleton] at htargets
  obtain ⟨t', ht', hsnapshot⟩ := List.map_eq_singleton_iff.mp htargets
  exact ⟨t', target_eq_ok.mpr ht', hsnapshot⟩

/-- The checks pass again over the later rows, where the agent may take the command. -/
theorem checked_since {base : Database} {name operationId payloadHash : String}
    {row : OperationRow} {fields : List (String × Json)} {t : OperationTarget}
    {op : ControllerOperation} {agent : ServerAgent} (hsince : Since base db)
    (hchecked : checked R base name = .ok (row, operationId, fields, payloadHash, t))
    (hop : db.operation? name = some op) (hagent : Table.get? db.agents op.serverAgent = some agent)
    (hsite : op.managedSite.isSome = true → row.siteDomain.isSome = true)
    (henabled : agent.enabled = true) (hdraining : agent.drainRequested = false)
    (hdomain : (op.managedSite.bind (Table.get? db.sites)).map (·.domain) = row.siteDomain)
    (hrevision : ∀ revision, orNone t.inventoryRevisionSnapshot = some revision →
      some revision = agent.inventoryDigest) :
    ∃ row' t', checked R db name = .ok (row', operationId, fields, payloadHash, t') ∧
      row'.op = op ∧ authoring row'.op = authoring row.op ∧ row'.agentId = row.agentId ∧
      row'.audience = row.audience ∧ row'.benchId = row.benchId ∧ row'.siteId = row.siteId := by
  obtain ⟨hrow, -, -, hprotocol, huuid, hcanonical, hbound, hpayload, ht, hsame, hhex⟩ :=
    checked_iff.mp hchecked
  obtain ⟨op₀, agent₀, bench₀, hop₀, hagent₀, hbench₀, rfl⟩ := CommandSnapshot.operationRow?_eq.mp hrow
  obtain ⟨op', hop', hauthoring, -⟩ := hsince.operation name op₀ hop₀
  rw [hop] at hop'
  cases hop'
  have hserver : op.serverAgent = op₀.serverAgent :=
    authoring_congr (·.serverAgent) (fun _ => rfl) hauthoring
  have hbenchName : op.bench = op₀.bench := authoring_congr (·.bench) (fun _ => rfl) hauthoring
  have hmanaged : op.managedSite = op₀.managedSite :=
    authoring_congr (·.managedSite) (fun _ => rfl) hauthoring
  obtain ⟨agent', hagent', hidentity⟩ := hsince.agents _ agent₀ hagent₀
  rw [← hserver, hagent] at hagent'
  cases hagent'
  obtain ⟨bench, hbench, hbenchId⟩ := hsince.benches _ bench₀ hbench₀
  rw [← hbenchName] at hbench
  obtain ⟨hagentId, haudience⟩ := Prod.mk.inj hidentity
  have hexists : op.managedSite.isSome = true →
      (op.managedSite.bind (Table.get? base.sites)).isSome = true := by
    intro hnamed
    have hfound := hsite hnamed
    rw [Option.isSome_map, ← hmanaged] at hfound
    exact hfound
  have hsiteId : (op.managedSite.bind (Table.get? db.sites)).map (·.siteId) =
      (op₀.managedSite.bind (Table.get? base.sites)).map (·.siteId) := by
    rw [← hmanaged]
    exact siteId_since hsince hexists
  have hname₀ : op₀.name = name := Table.get?_name hop₀
  have hname : op.name = name := Table.get?_name hop
  rw [hname₀] at ht
  obtain ⟨t', ht', hsnapshot⟩ := target_since hsince hop₀ ht
  have hfields := congrArg (fun t : OperationTarget => (t.serverAgent, t.bench, t.managedSite,
    t.siteDomainSnapshot, t.operationTypeSnapshot, t.payloadHashSnapshot,
    t.inventoryRevisionSnapshot)) hsnapshot
  simp only [snapshot, Prod.mk.injEq] at hfields
  obtain ⟨h₁, h₂, h₃, h₄, h₅, h₆, h₇⟩ := hfields
  have htype : op.operationType = op₀.operationType :=
    authoring_congr (·.operationType) (fun _ => rfl) hauthoring
  have hhash : op.payloadHash = op₀.payloadHash :=
    authoring_congr (·.payloadHash) (fun _ => rfl) hauthoring
  have hid : op.operationId = op₀.operationId :=
    authoring_congr (·.operationId) (fun _ => rfl) hauthoring
  have hkey : op.idempotencyKey = op₀.idempotencyKey :=
    authoring_congr (·.idempotencyKey) (fun _ => rfl) hauthoring
  have hversion : op.protocolVersion = op₀.protocolVersion :=
    authoring_congr (·.protocolVersion) (fun _ => rfl) hauthoring
  have hpayload' : payload R op = payload R op₀ :=
    authoring_congr (payload R) (fun _ => rfl) hauthoring
  refine ⟨_, t', checked_iff.mpr ⟨CommandSnapshot.operationRow?_eq.mpr
    ⟨op, agent, bench, hop, hagent, hbench, rfl⟩, henabled, hdraining, ?_, ?_, ?_, ?_, ?_, ?_, ?_,
    ?_⟩, rfl, hauthoring, hagentId, haudience, hbenchId, hsiteId⟩
  · exact ⟨hversion.trans hprotocol.1, haudience.trans hprotocol.2⟩
  · rw [hid]
    exact huuid
  · rw [hid]
    exact hcanonical
  · rw [hkey]
    exact hbound
  · rw [hpayload']
    exact hpayload
  · rw [hname]
    exact ht'
  · rw [h₁, h₂, h₃, h₄, h₅, h₆, hserver, hbenchName, hmanaged, htype, hhash, ← hmanaged, hdomain,
      hmanaged]
    exact hsame
  · rw [h₇]
    intro revision hsome
    exact ⟨(hhex revision hsome).1, hrevision revision hsome⟩

/-! ### The answer -/

/-- The state a request can be repeated in: the target is still as the request found it, and an
operation that needs no approval is still queued for an agent that may take it. -/
structure Repeatable (request : OperationRequest) (first : AuthoredOperation)
    (target : TargetSnapshot) (db : Database) : Prop where
  revision : target.inventoryRevision = first.inventoryRevision
  domain : target.siteDomain = first.siteDomain
  supported : target.capabilities.contains request.operationType = true
  queued : first.requiredApprovals = 0 → ∃ op agent, db.operation? first.operationId = some op ∧
    Table.get? db.agents first.serverAgent = some agent ∧ op.state = .queued ∧
    agent.drainRequested = false ∧ op.approvalStatus = .notRequired ∧
    (approvals db first.operationId).any (·.decision == .rejected) = false

/-- An operation that is found identical is not inserted again. -/
theorem create_found {actor : String} {a : AuthoredOperation} {insertion : Insertion}
    {op : ControllerOperation} (hop : s.view.operation? a.operationId = some op)
    (hidentical : existingIsIdentical a op s.view = .ok ()) :
    create R actor a insertion s = .ok () s := by
  refine bind_apply_eq_ok.mpr ⟨some op, s, read_eq_ok.mpr ⟨by rw [hop], rfl⟩, ?_⟩
  exact read_eq_ok.mpr ⟨hidentical, rfl⟩

/-- A command that is found queued with its hash is not written again. -/
theorem enqueue_found {name digest : String} {now : DateTime} {op : ControllerOperation}
    {env : List (String × Json)} (henv : envelope R lifetime s.current name now = .ok env)
    (hdigest : immutableCommandHash R env = .ok digest) (hop : s.view.operation? name = some op)
    (hstate : op.state = .queued) (hhash : orNone op.commandHash = some digest) :
    enqueueApprovedOperation R lifetime name now s = .ok env s := by
  refine bind_apply_eq_ok.mpr ⟨env, s, readForUpdate_eq_ok.mpr ⟨henv, rfl⟩, ?_⟩
  refine bind_apply_eq_ok.mpr ⟨op, s, read_eq_ok.mpr ⟨by rw [hop], rfl⟩, ?_⟩
  refine bind_apply_eq_ok.mpr ⟨digest, s, query_eq_ok.mpr ⟨hdigest, rfl⟩, ?_⟩
  rw [if_pos ⟨hstate, hhash⟩]
  rfl

/-- The id of an accepted request is its column value, in lower case. -/
theorem authored_operationId {request : OperationRequest} {actor : String}
    {first : AuthoredOperation} {validator : PayloadValidator}
    (h : authored R validator request actor db = .ok first) :
    R.lower request.operationId = first.operationId := by
  obtain ⟨⟨⟩, -, h⟩ := bind_eq_ok.mp h
  obtain ⟨uuid, huuid, h⟩ := bind_eq_ok.mp h
  simp only [bind_eq_ok, ensure_eq_ok, exists_const, Prod.exists, pure, Except.pure,
    Except.ok.injEq] at h
  obtain ⟨-, target, -, -, -, authorization, -, u, -, rule, -, payloadJson, payloadHash, -, previewOf,
    -, rfl⟩ := h
  unfold operationUuid at huuid
  split at huuid
  · cases huuid
  · obtain ⟨⟨⟩, hlower, hlast⟩ := bind_eq_ok.mp huuid
    cases hlast
    exact (beq_iff_eq.mp (ensure_eq_ok.mp hlower)).symm

/-- The dispatch of a repeat whose operation needs no approval finds its command. -/
theorem Commanded.repeats {name : String} {now : DateTime} {op : ControllerOperation}
    {agent : ServerAgent} (h : Commanded R lifetime name db)
    (hop : db.operation? name = some op) (hagent : Table.get? db.agents op.serverAgent = some agent)
    (hzero : op.requiredApprovals = 0) (hstatus : op.approvalStatus = .notRequired)
    (hrejected : (approvals db name).any (·.decision == .rejected) = false)
    (henabled : agent.enabled = true) (hdraining : agent.drainRequested = false)
    (hstored : ∃ t, targetOf? db name = some t ∧ (op.managedSite.isSome = true →
        t.siteDomainSnapshot.isSome = true) ∧
      (op.managedSite.bind (Table.get? db.sites)).map (·.domain) = t.siteDomainSnapshot ∧
      ∀ revision, orNone t.inventoryRevisionSnapshot = some revision →
        some revision = agent.inventoryDigest) :
    ∃ env digest, envelope R lifetime db name now = .ok env ∧
      immutableCommandHash R env = .ok digest ∧ orNone op.commandHash = some digest := by
  obtain ⟨base, now₀, row, operationId, fields, payloadHash, t₀, digest, op', hsince, hchecked, hbulk,
    hdigest, hne, hop', hhash⟩ := h
  rw [hop] at hop'
  cases hop'
  obtain ⟨t, ht, hsite, hdomain, hrevision⟩ := hstored
  obtain ⟨hrow, -, -, -, -, -, -, -, ht₀, hsame, -⟩ := checked_iff.mp hchecked
  obtain ⟨op₀, agent₀, bench₀, hop₀, -, -, hrowEq⟩ := CommandSnapshot.operationRow?_eq.mp hrow
  have hname₀ : row.op.name = name := by
    rw [hrowEq]
    exact Table.get?_name hop₀
  rw [hname₀, target_eq_ok] at ht₀
  obtain ⟨t', ht', hsnapshot⟩ := hsince.target hop₀ (by rw [targetOf?_eq, ht₀, List.head?_cons])
  rw [ht] at ht'
  cases ht'
  -- the snapshots of the target are those the command was built from
  have hdomainSnapshot : t.siteDomainSnapshot = t₀.siteDomainSnapshot :=
    congrArg (·.siteDomainSnapshot) hsnapshot
  have hrevisionSnapshot : t.inventoryRevisionSnapshot = t₀.inventoryRevisionSnapshot :=
    congrArg (·.inventoryRevisionSnapshot) hsnapshot
  simp only [Bool.and_eq_true, beq_iff_eq] at hsame
  have hrowDomain : t.siteDomainSnapshot = row.siteDomain := hdomainSnapshot.trans hsame.1.1.2
  obtain ⟨row', t', hchecked', hrowOp, hauthoring, hagentId, haudience, hbenchId, hsiteId⟩ :=
    checked_since hsince hchecked hop hagent (fun hsome => hrowDomain ▸ hsite hsome) henabled
      hdraining (hdomain.trans hrowDomain) (hrevisionSnapshot ▸ hrevision)
  have hopBulk : truthy row'.op.bulkParent = false := by
    rw [authoring_congr (·.bulkParent) (fun _ => rfl) hauthoring]
    exact hbulk
  have hname : op.name = name := Table.get?_name hop
  -- without required approvals there is no claim to build
  have hclaims : approvalClaims db row'.op t' = .ok [] := by
    refine (approvalClaims_of_zero (hrowOp ▸ hzero)).mpr ⟨hopBulk, ?_, hrowOp ▸ hstatus, rfl⟩
    rw [hrowOp, hname]
    exact hrejected
  refine ⟨command lifetime now row' operationId fields payloadHash [], digest, ?_, ?_,
    orNone_eq_some.mpr ⟨hhash, hne⟩⟩
  · simp only [envelope, bind_eq_ok, Prod.exists, pure, Except.pure, Except.ok.injEq]
    exact ⟨row', operationId, fields, payloadHash, t', hchecked', [], hclaims, rfl⟩
  · rw [immutableCommand_congr hauthoring hagentId haudience hbenchId hsiteId]
    exact hdigest

/-- A fixed command has its hash stored. -/
theorem Commanded.hash {name : String} {op : ControllerOperation}
    (h : Commanded R lifetime name db) (hop : db.operation? name = some op) :
    orNone op.commandHash ≠ none := by
  obtain ⟨-, -, -, -, -, -, -, digest, op', -, -, -, -, hne, hop', hhash⟩ := h
  rw [hop] at hop'
  cases hop'
  rw [orNone_eq_some.mpr ⟨hhash, hne⟩]
  exact Option.some_ne_none _

/-- A dispatch that finds its command found it queued, for an agent that may take it. -/
theorem Commanded.queued_of_enqueue {name : String} {now : DateTime} {op : ControllerOperation}
    {env : List (String × Json)} (h : Commanded R lifetime name db)
    (hop : db.operation? name = some op) (hzero : op.requiredApprovals = 0)
    (hrun : enqueueApprovedOperation R lifetime name now ⟨db, db⟩ = .ok env s') :
    ∃ agent, Table.get? db.agents op.serverAgent = some agent ∧ op.state = .queued ∧
      agent.drainRequested = false ∧ op.approvalStatus = .notRequired ∧
      (approvals db name).any (·.decision == .rejected) = false := by
  obtain ⟨henv, op', digest, hop', -, hcase⟩ := enqueueApprovedOperation_eq_ok hrun
  change envelope R lifetime db name now = .ok env at henv
  rw [show (⟨db, db⟩ : Session).view = db from rfl, hop] at hop'
  cases hop'
  obtain ⟨row, operationId, fields, payloadHash, t, hchecked, hrow, -, hrejected, hstatus, -⟩ :=
    envelope_of_zero henv fun op' hop' => by
      rw [show op' = op from Option.some.inj (hop'.symm.trans hop)]
      exact hzero
  obtain ⟨hjoined, -, hdraining, -⟩ := checked_iff.mp hchecked
  obtain ⟨op', agent, bench, hop', hagent, -, hrowEq⟩ := CommandSnapshot.operationRow?_eq.mp hjoined
  rw [hop] at hop'
  cases hop'
  rw [hrowEq] at hdraining hstatus
  refine ⟨agent, hagent, ?_, hdraining, hstatus, hrejected⟩
  rcases hcase with ⟨hqueued, -⟩ | ⟨text, -, hunqueued, -⟩
  · exact hqueued
  · exact absurd hunqueued (h.hash hop)

/-- The dispatch of a repeat finds its command. -/
theorem Accepted.enqueue_again {actor : String} {request : OperationRequest} {view : Database}
    {first : AuthoredOperation} {target : TargetSnapshot}
    (h : Accepted R services actor request view first db)
    (hforce : InForce R services actor request first target db)
    (hrepeat : Repeatable request first target db) (now : DateTime) :
    ∃ requested, enqueueIfApproved R services.commandLifetime first now ⟨db, db⟩ =
      .ok requested ⟨db, db⟩ := by
  unfold enqueueIfApproved
  by_cases hzero : first.requiredApprovals = 0
  · rw [if_pos hzero]
    -- the stored rows agree with the first authoring, column by column
    obtain ⟨op, t, hop, hsame, ht, htarget⟩ := h.stored
    simp only [sameOperation, Bool.and_eq_true, beq_iff_eq] at hsame
    simp only [sameTarget, Bool.and_eq_true, beq_iff_eq] at htarget
    obtain ⟨op', agent, hop', hagent, hstate, hdraining, hstatus, hrejected⟩ :=
      hrepeat.queued hzero
    rw [hop] at hop'
    cases hop'
    have hfirst := authored_eq_ok h.authored
    obtain ⟨agentRow, benchRow, hrows⟩ := resolveTarget_rows hforce.resolved
    -- the agent the target resolves to is the one the command waits for
    have hrow : agentRow = agent := by
      rw [hfirst.serverAgent, hrows.getAgent] at hagent
      exact Option.some.inj hagent
    rw [hrow] at hrows
    have henabled : agent.enabled = true := by
      have hactive := hforce.active
      rw [Bool.and_eq_true] at hactive
      exact hrows.enabled hactive.1
    have hsite : op.managedSite = request.managedSite :=
      hsame.1.1.1.1.1.1.1.1.1.2.trans hfirst.managedSite
    have hdomain : t.siteDomainSnapshot =
        (request.managedSite.bind (Table.get? db.sites)).map (·.domain) := by
      rw [htarget.1.1.1.1.2, ← hrepeat.domain, hrows.domain]
    have hrevision : some first.inventoryRevision = agent.inventoryDigest := by
      rw [← hrepeat.revision]
      exact hrows.inventory
    -- over the later rows the same envelope is built, but for its validity
    have hcommand : ∃ env digest,
        envelope R services.commandLifetime db first.operationId now = .ok env ∧
        immutableCommandHash R env = .ok digest ∧ orNone op.commandHash = some digest := by
      refine (h.command hzero).repeats hop (hsame.1.1.1.1.1.1.1.1.1.1.1.2 ▸ hagent)
        (hsame.1.1.1.2.trans hzero) hstatus hrejected henabled hdraining ⟨t, ht, ?_, ?_, ?_⟩
      · intro hsome
        rw [hsite] at hsome
        obtain ⟨name, hname⟩ := Option.isSome_iff_exists.mp hsome
        rw [hdomain, hname, Option.isSome_map, Option.bind_some]
        exact hrows.site name hname
      · rw [hsite, hdomain]
      · intro revision hsome
        rw [htarget.1.2] at hsome
        rw [← (orNone_eq_some.mp hsome).1]
        exact hrevision
    obtain ⟨env, digest, henv, hdigest, hhash⟩ := hcommand
    exact ⟨_, bind_apply_eq_ok.mpr ⟨env, _, enqueue_found henv hdigest hop hstate hhash, rfl⟩⟩
  · rw [if_neg hzero]
    exact ⟨_, rfl⟩

/-- A repeat over one version: it is answered like the first request where `Repeatable`. -/
theorem repeat_iff {actor : String} {value : Json} {request : OperationRequest} {view : Database}
    {first : AuthoredOperation} {target : TargetSnapshot} {insertion : Insertion}
    (hrequest : OperationRequests.request value = .ok request)
    (h : Accepted R services actor request view first db)
    (hforce : InForce R services actor request first target db) :
    (∃ created, createOperation R services actor value insertion ⟨db, db⟩ = .ok created ⟨db, db⟩ ∧
      created.operationId = first.operationId) ↔ Repeatable request first target db := by
  obtain ⟨op, t, hop, hsame, ht, htarget⟩ := h.stored
  have hfirst := authored_eq_ok h.authored
  have hnone : first.retryOf = none := hfirst.retryOf.trans (request_retryOf hrequest)
  have hoperation := hsame
  have htargetRow := htarget
  simp only [sameOperation, Bool.and_eq_true, beq_iff_eq] at hoperation
  simp only [sameTarget, Bool.and_eq_true, beq_iff_eq] at htargetRow
  have hserver : op.serverAgent = first.serverAgent := hoperation.1.1.1.1.1.1.1.1.1.1.1.2
  have hrequired : op.requiredApprovals = first.requiredApprovals := hoperation.1.1.1.2
  have hdomain : t.siteDomainSnapshot = first.siteDomain := htargetRow.1.1.1.1.2
  have hrevision : t.inventoryRevisionSnapshot = some first.inventoryRevision := htargetRow.1.2
  -- what the comparisons of the repeat ask of the stored rows, column by column
  constructor
  · rintro ⟨created, hrun, -⟩
    obtain ⟨-, request', hrequest', -, again, hagain, s₁, requested, hcreate, henqueue, -⟩ :=
      createOperation_eq_ok.mp hrun
    rw [hrequest] at hrequest'
    cases hrequest'
    obtain ⟨target', htarget', hdomain', hrevision', hsupported⟩ := authored_target hagain
    rw [hforce.resolved] at htarget'
    cases htarget'
    -- the id is that of the request, so the repeat finds the first operation
    have hid : again.operationId = first.operationId :=
      Option.some.inj ((authored_eq_ok hagain).operationId.symm.trans hfirst.operationId)
    obtain ⟨op', hop', hidentical, rfl⟩ | ⟨hfresh, -⟩ := create_eq_ok hcreate
    · -- the stored rows agree with both authorings
      rw [hid, show (⟨db, db⟩ : Session).view = db from rfl, hop] at hop'
      cases hop'
      obtain ⟨hsame', t', ht', htargetSame⟩ := existingIsIdentical_eq_ok.mp hidentical
      rw [hid, show (⟨db, db⟩ : Session).view = db from rfl, ht] at ht'
      cases ht'
      simp only [sameTarget, Bool.and_eq_true, beq_iff_eq] at htargetSame
      have hrequired' : again.requiredApprovals = first.requiredApprovals :=
        (requiredApprovals_of_same hsame').symm.trans hrequired
      refine ⟨?_, ?_, hsupported, fun hzero => ?_⟩
      · rw [← hrevision']
        exact Option.some.inj (htargetSame.1.2.symm.trans hrevision)
      · rw [← hdomain']
        exact htargetSame.1.1.1.1.2.symm.trans hdomain
      · obtain ⟨-, ⟨hrequires, -⟩ | ⟨-, env, hrun⟩⟩ := enqueueIfApproved_eq_ok henqueue
        · omega
        · rw [hid] at hrun
          obtain ⟨agent, hagent, hqueued⟩ :=
            (h.command hzero).queued_of_enqueue hop (hrequired.trans hzero) hrun
          exact ⟨op, agent, hop, hserver ▸ hagent, hqueued⟩
    · rw [hid, show (⟨db, db⟩ : Session).view = db from rfl, hop] at hfresh
      cases hfresh
  · intro hrepeat
    -- conversely the repeat authors the same operation, finds it, and finds its command
    have hagain : OperationAuthoring.authored R services.validatePayload request actor db =
        .ok first :=
      authored_again h.since h.authored hforce hrepeat.revision hrepeat.domain hrepeat.supported
    have hcheck : checkRequest R services request db = .ok () := by
      unfold checkRequest
      refine bind_eq_ok.mpr ⟨(), hforce.feature, ?_⟩
      rw [authored_operationId h.authored, hop]
      rfl
    have hcreate : create R actor first insertion ⟨db, db⟩ = .ok () ⟨db, db⟩ :=
      create_found hop (existingIsIdentical_eq_ok.mpr ⟨hsame, t, ht, htarget⟩)
    obtain ⟨requested, henqueue⟩ := h.enqueue_again hforce hrepeat insertion.now
    exact ⟨_, createOperation_eq_ok.mpr ⟨hforce.author, request, hrequest, hcheck, first, hagain,
      ⟨db, db⟩, requested, hcreate, henqueue, rfl⟩, rfl⟩

end Requests

/-! ## Runs -/

section Runs

variable {R services clockSkew} {labels : List Label} {older : List Database}

/-- What every commit keeps: no version had anything that is lost, and every accepted request is
still in its rows. -/
structure Inv (R : Runtime) (services : Services) (labels : List Label) (db : Database)
    (older : List Database) : Prop where
  kept : ∀ version ∈ db :: older, Schema version ∧ Since version db
  accepted : ∀ actor value view created, .create actor value view (.ok created) ∈ labels →
    ∃ request first, OperationRequests.request value = .ok request ∧
      created.operationId = first.operationId ∧
      Accepted R services actor request view first db

/-- A commit that keeps everything, and accepts what it leaves behind. -/
theorem Inv.commit {l : Label} (hinv : Inv R services labels db older) (hkept : Since db db')
    (hschema : Schema db')
    (hnew : ∀ actor value view created, l = .create actor value view (.ok created) →
      ∃ request first, OperationRequests.request value = .ok request ∧
        created.operationId = first.operationId ∧
        Accepted R services actor request view first db') :
    Inv R services (labels ++ [l]) db' (db :: older) where
  kept := by
    intro version hversion
    rcases List.mem_cons.mp hversion with rfl | hversion
    · exact ⟨hschema, .refl _⟩
    · obtain ⟨hold, hsince⟩ := hinv.kept version hversion
      exact ⟨hold, hsince.trans hkept⟩
  accepted := by
    intro actor value view created hlabel
    rcases List.mem_append.mp hlabel with hlabel | hlast
    · obtain ⟨request, first, hrequest, hid, haccepted⟩ :=
        hinv.accepted actor value view created hlabel
      exact ⟨request, first, hrequest, hid, haccepted.later (request_retryOf hrequest) hkept⟩
    · exact hnew actor value view created (List.mem_singleton.mp hlast).symm

/-- A request keeps the invariant, and what it answers is recorded. -/
theorem Inv.create (hhex : ∀ text, isSha256 (R.sha256 text) = true)
    (hinv : Inv R services labels db older) {actor : String} {value : Json}
    {insertion : Insertion} {view : Database} (hview : view ∈ db :: older) :
    Inv R services (labels ++ [.create actor value view
        (serve (createOperation R services actor value insertion) view db).1])
      (serve (createOperation R services actor value insertion) view db).2 (db :: older) := by
  have hschema : Schema db := (hinv.kept db (List.mem_cons_self ..)).1
  obtain ⟨hviewSchema, hsince⟩ := hinv.kept view hview
  obtain ⟨e, hserve⟩ | ⟨created, s', hrun, hserve⟩ :=
    serve_cases (createOperation R services actor value insertion) view db
  · rw [hserve]
    refine hinv.commit (.refl db) hschema ?_
    intro actor' value' view' created' hlabel
    cases hlabel
  · obtain ⟨hkept, hschema', request, first, hrequest, hid, haccepted⟩ :=
      accepted_of_create hhex hviewSchema hschema hsince hrun
    rw [hserve]
    refine hinv.commit hkept hschema' ?_
    intro actor' value' view' created' hlabel
    cases hlabel
    exact ⟨request, first, hrequest, hid, haccepted⟩

/-- A commit that is not a request. -/
theorem Inv.quiet {l : Label} (hinv : Inv R services labels db older) (hkept : Kept db db')
    (hl : ∀ actor value view created, l ≠ .create actor value view (.ok created)) :
    Inv R services (labels ++ [l]) db' (db :: older) :=
  hinv.commit hkept.since (hkept.schema (hinv.kept db (List.mem_cons_self ..)).1)
    fun actor value view created hlabel => absurd hlabel (hl actor value view created)

/-- One more commit keeps the invariant. -/
theorem Inv.step {l : Label} {versions : List Database}
    (hhex : ∀ text, isSha256 (R.sha256 text) = true) (hinv : Inv R services labels db older)
    (h : Step R services clockSkew (db :: older) l versions) :
    ∃ db', versions = db' :: db :: older ∧ Inv R services (labels ++ [l]) db' (db :: older) := by
  cases h with
  | create hview => exact ⟨_, rfl, hinv.create hhex hview⟩
  | dispatch name now =>
    exact ⟨_, rfl, hinv.quiet (kept_dispatch hhex) fun _ _ _ _ hlabel => by cases hlabel⟩
  | lease agentId now allowedOperationTypes commandFilter locked =>
    have hkept : Kept db (Transaction.committed (leaseCommand R services.commandLifetime clockSkew
        agentId now allowedOperationTypes commandFilter locked) db) := by
      cases hrun : leaseCommand R services.commandLifetime clockSkew agentId now
        allowedOperationTypes commandFilter locked db with
      | error e s =>
        rw [Transaction.committed_of_error hrun]
        exact .refl db
      | ok result db' =>
        rw [Transaction.committed_of_ok hrun]
        have hwrites : Lifecycle.Writes R services.commandLifetime clockSkew [] .other db db' :=
          Lifecycle.lease_writes hrun
        exact kept_writes (fun _ _ hlabel => by cases hlabel) hwrites
    exact ⟨_, rfl, hinv.quiet hkept fun _ _ _ _ hlabel => by cases hlabel⟩
  | @result _ _ body receivedAt views hviews =>
    refine ⟨_, rfl, hinv.quiet ?_ fun _ _ _ _ hlabel => by cases hlabel⟩
    unfold Lifecycle.serveResult FrappeRepository.serve
    split
    · rename_i hok
      have hwrites : Lifecycle.Writes R services.commandLifetime clockSkew (db :: older)
          (.result body receivedAt views) db _ := Lifecycle.result_writes hviews hok
      exact kept_writes (fun _ _ hlabel => by cases hlabel) hwrites
    · exact .refl db
  | heartbeat agentId state observedAt hview =>
    exact ⟨_, rfl, hinv.quiet (kept_sameFleet (CommandSnapshot.sameFleet_serve ..))
      fun _ _ _ _ hlabel => by cases hlabel⟩
  | other hother =>
    refine ⟨_, rfl, hinv.commit hother.since hother.schema ?_⟩
    intro actor value view created hlabel
    cases hlabel

/-- The invariant holds after every run. -/
theorem inv_run (hhex : ∀ text, isSha256 (R.sha256 text) = true) {start : Database}
    {versions : List Database} (hstart : Schema start)
    (hrun : Run (Step R services clockSkew) [start] labels versions) :
    ∃ db older, versions = db :: older ∧ Inv R services labels db older := by
  induction hrun with
  | nil =>
    refine ⟨start, [], rfl, ?_, ?_⟩
    · intro version hversion
      cases List.mem_singleton.mp hversion
      exact ⟨hstart, .refl start⟩
    · intro actor value view created hlabel
      cases hlabel
  | snoc _ hlast ih =>
    obtain ⟨db, older, rfl, hinv⟩ := ih
    obtain ⟨db', rfl, hinv'⟩ := hinv.step hhex hlast
    exact ⟨db', db :: older, rfl, hinv'⟩

/-- In every version after a request was accepted, the same request of the same actor is answered
with its operation id and writes nothing, if and only if the target still has the inventory
revision, the domain and the capability the request found, and an operation that needs no approval
is still queued for an agent that does not drain. -/
theorem repeat_create_iff (hhex : ∀ text, isSha256 (R.sha256 text) = true) {start : Database}
    (hstart : Schema start) (hrun : Run (Step R services clockSkew) [start] labels (db :: older))
    {actor : String} {value : Json} {view : Database} {created : Created}
    (haccepted : .create actor value view (.ok created) ∈ labels) :
    ∃ request first, OperationRequests.request value = .ok request ∧
      authored R services.validatePayload request actor view = .ok first ∧
      ∀ target, InForce R services actor request first target db → ∀ insertion,
        ((∃ again, createOperation R services actor value insertion ⟨db, db⟩ =
            .ok again ⟨db, db⟩ ∧ again.operationId = created.operationId) ↔
          Repeatable request first target db) := by
  obtain ⟨db', older', hhistory, hinv⟩ := inv_run hhex hstart hrun
  cases hhistory
  obtain ⟨request, first, hrequest, hid, haccepted⟩ :=
    hinv.accepted actor value view created haccepted
  refine ⟨request, first, hrequest, haccepted.authored, fun target hforce insertion => ?_⟩
  rw [hid]
  exact repeat_iff hrequest haccepted hforce

/-! ### What an operation's own progress leaves alone -/

/-- The rows that are no operation's and no target's. -/
def conditions (db : Database) : Database :=
  { db with operations := [], operationTargets := [], bulkTargets := [] }

/-- What reads those rows only is equal for versions that agree on them. -/
theorem conditions_congr {β : Type} (f : Database → β) (hf : ∀ db, f (conditions db) = f db)
    (h : conditions db' = conditions db) : f db' = f db := by
  rw [← hf db', h, hf]

/-- Moving an operation on leaves the other rows as they are. -/
theorem conditions_advance {name : String} {bulkTarget : Option String}
    {f : ControllerOperation → ControllerOperation} {g : OperationTarget → OperationTarget}
    {h : BulkOperationTarget → BulkOperationTarget} :
    conditions (db.advance name bulkTarget f g h) = conditions db := by
  cases bulkTarget <;> rfl

/-- A step of an operation leaves the other rows as they are. -/
theorem conditions_writes {history : List Database} {l : Lifecycle.Label} {base : Database}
    (h : Lifecycle.Writes R lifetime clockSkew history l base db) :
    conditions db = conditions base := by
  induction h with
  | refl => rfl
  | step _ hwrite ih =>
    rw [← ih]
    cases hwrite with
    | queue => exact conditions_advance
    | fail => exact conditions_advance
    | lease => exact conditions_advance
    | record => exact conditions_advance

/-- A lease leaves the other rows as they are. -/
theorem conditions_lease {agentId : String} {now : DateTime}
    {allowedOperationTypes : Option (List String)} {commandFilter : Candidate → Bool}
    {locked : List String} :
    conditions (Transaction.committed (leaseCommand R lifetime clockSkew agentId now
      allowedOperationTypes commandFilter locked) db) = conditions db := by
  cases hrun : leaseCommand R lifetime clockSkew agentId now allowedOperationTypes commandFilter
    locked db with
  | error e s => rw [Transaction.committed_of_error hrun]
  | ok result db' =>
    rw [Transaction.committed_of_ok hrun]
    have hwrites : Lifecycle.Writes R lifetime clockSkew [] .other db db' :=
      Lifecycle.lease_writes hrun
    exact conditions_writes hwrites

/-- A creation leaves the other rows as they are. -/
theorem conditions_create {actor : String} {value : Json} {insertion : Insertion}
    {view : Database} :
    conditions (serve (createOperation R services actor value insertion) view db).2 =
      conditions db := by
  obtain ⟨e, hserve⟩ | ⟨created, s', hrun, hserve⟩ :=
    serve_cases (createOperation R services actor value insertion) view db
  · rw [hserve]
  · rw [hserve]
    obtain ⟨-, request, -, -, first, -, s₁, requested, hcreate, henqueue, -⟩ :=
      createOperation_eq_ok.mp hrun
    have hinserted : conditions s₁.current = conditions db := by
      obtain ⟨op, -, -, rfl⟩ | ⟨-, -, -, base, rfl⟩ := create_eq_ok hcreate <;> rfl
    obtain ⟨-, ⟨-, rfl⟩ | ⟨-, env, hrun⟩⟩ := enqueueIfApproved_eq_ok henqueue
    · exact hinserted
    · obtain ⟨-, op, digest, -, -, ⟨-, -, rfl⟩ | ⟨text, -, -, rfl⟩⟩ :=
        enqueueApprovedOperation_eq_ok hrun
      · exact hinserted
      · exact conditions_advance.trans hinserted

/-- What is in force stays in force where those rows are the same. -/
theorem InForce.of_conditions {actor : String} {request : OperationRequest}
    {first : AuthoredOperation} {target : TargetSnapshot}
    (h : InForce R services actor request first target db)
    (hsame : conditions db' = conditions db) :
    InForce R services actor request first target db' := by
  have hconditions : InForce R services actor request first target (conditions db') := by
    rw [hsame]
    exact ⟨h.author, h.feature, h.resolved, h.active, h.policy⟩
  exact ⟨hconditions.author, hconditions.feature, hconditions.resolved, hconditions.active,
    hconditions.policy⟩

end Runs

end

/-! ## A sample

A migration of a site in staging, where no approval is needed. -/

namespace Sample

open Dispatcher.Sample (operationId emptyDigest now)
open OperationRequests.Sample (payload payloadHash capabilities services)

def value : Json :=
  .obj [("operation_id", .str operationId), ("operation_type", .str "site.migrate"),
    ("server_agent", .str "agent-1"), ("bench", .str "bench-1"), ("managed_site", .str "site-1"),
    ("payload", .obj payload)]

def start : Database :=
  { OperationRequests.Sample.start with
    agents := [{ Dispatcher.Sample.agent with
      environment := "staging", status := .online, capabilitiesJson := some capabilities }]
    benches := [{ Dispatcher.Sample.bench with
      environment := "staging", capabilitiesJson := some capabilities }]
    sites := [{ Dispatcher.Sample.site with environment := "staging", status := .active }]
    policies := [], operations := [], operationTargets := []
    featureConfig :=
      { masterEnabled := true, features := [("restore_and_reinstall", ["staging"])] } }

def request : OperationRequest where
  operationId := operationId
  operationType := "site.migrate"
  serverAgent := "agent-1"
  bench := "bench-1"
  managedSite := some "site-1"
  payload := payload

/-- The text of a document. -/
def text (document : Json) : Text := (Dispatcher.Sample.runtime [] []).dumps document

def targetHash : String := "0a43d5f45388271cb07174fbee0d2f88c060c32c6328db4d51c9b243957579f0"

def target : TargetSnapshot where
  serverAgent := "agent-1"
  agentId := "agent-1"
  bench := "bench-1"
  benchId := "bench-1"
  managedSite := some "site-1"
  siteDomain := some "one.example"
  environment := "staging"
  inventoryRevision := emptyDigest
  capabilities := ["site.migrate"]
  agentEnabled := true
  siteActive := true

/-- What the request authors. -/
def first : AuthoredOperation where
  operationId := operationId
  idempotencyKey := "controller:" ++ operationId
  protocolVersion := "1.0"
  serverAgent := "agent-1"
  agentId := "agent-1"
  bench := "bench-1"
  benchId := "bench-1"
  managedSite := some "site-1"
  siteDomain := some "one.example"
  operationType := "site.migrate"
  payloadJson := text (.obj payload)
  payloadHash := payloadHash
  requestedBy := "alice@example.com"
  approvalPolicy := none
  approvalStatus := .notRequired
  requiredApprovals := 0
  state := .awaitingApproval
  inventoryRevision := emptyDigest
  targetKey := targetHash
  previewOf := none
  previewResultHash := none
  retryOf := none

def created : Created where
  operationId := operationId
  state := .queued
  approvalStatus := .notRequired
  requiredApprovals := 0
  payloadHash := payloadHash

/-- The command, with its validity where it is stored. -/
def commandFields (validity : List (String × Json)) : List (String × Json) :=
  [("protocol_version", .str "1.0"), ("operation_id", .str operationId),
    ("idempotency_key", .str ("controller:" ++ operationId)), ("agent_id", .str "agent-1"),
    ("audience", .str "frappe-controller"), ("bench_id", .str "bench-1"),
    ("site_id", .str "site-1"), ("operation", .str "site.migrate"), ("payload", .obj payload),
    ("requested_by", .str "alice@example.com"), ("approval_claims", .arr [])] ++ validity ++
    [("payload_hash", .str payloadHash)]

def stored : List (String × Json) :=
  commandFields [("issued_at", .str "2026-01-05T00:00:00.000000Z"),
    ("expires_at", .str "2026-01-05T00:05:00.000000Z")]

def commandHash : String := "3aa5c39de66399b9762abf3148629decd6408e48c5fb532c873a9bf642b02bf3"

/-- The digests of the texts that occur; any other text has some other digest. -/
def digests : List (Text × String) :=
  [(text (.obj payload), payloadHash),
    (text (.arr [.str operationId, .str "agent-1", .str "bench-1", .str "site-1",
      .str emptyDigest]), targetHash),
    (text (.obj (commandFields [])), commandHash)]

def runtime : Runtime :=
  { Dispatcher.Sample.runtime digests
      [(text (.obj payload), .obj payload), (capabilities, .arr [.str "site.migrate"]),
        (text (.obj stored), .obj stored)] with
    sha256 := fun text => (digests.lookup text).getD emptyDigest }

/-- The version after the request, and the one after its command was leased. -/
def accepted : Except Exc Created × Database :=
  serve (createOperation runtime services "alice@example.com" value ⟨"target-1", now⟩) start start

@[inherit_doc accepted]
def leased : Database :=
  Transaction.committed (leaseCommand runtime services.commandLifetime 30 "agent-1" now none
    (fun _ => true) []) accepted.2

/-- The sample request is accepted and its command leased. -/
theorem accepted_leased :
    accepted.1 = .ok created ∧
      ((accepted.2.operation? operationId).map fun op => (op.state, op.approvalStatus)) =
        some (.queued, .notRequired) ∧
      ((leased.operation? operationId).map (·.state)) = some .leased := by
  decide +kernel

/-- Every digest of the sample runtime is in hexadecimal. -/
theorem isSha256_runtime (text : Text) : isSha256 (runtime.sha256 text) = true := by
  show isSha256 ((digests.lookup text).getD emptyDigest) = true
  unfold digests
  simp only [List.lookup_cons, List.lookup_nil]
  split
  · decide +kernel
  · split
    · decide +kernel
    · split <;> decide +kernel

/-- The sample starts without operations. -/
theorem schema_start : Schema start :=
  ⟨fun _ hop => absurd hop List.not_mem_nil, fun _ ht => absurd ht List.not_mem_nil⟩

/-- The run of the first request. -/
theorem run_accepted : Run (Step runtime services 30) [start]
    [.create "alice@example.com" value start (.ok created)] [accepted.2, start] := by
  rw [← accepted_leased.1]
  exact (Run.nil [start]).snoc (.create (List.mem_cons_self ..))

/-- The run of the first request and the lease of its command. -/
theorem run_leased : Run (Step runtime services 30) [start]
    [.create "alice@example.com" value start (.ok created), .lease] [leased, accepted.2, start] :=
  run_accepted.snoc (.lease ..)

/-- What the sample request authors over the start. -/
theorem authored_start :
    authored runtime services.validatePayload request "alice@example.com" start = .ok first := by
  decide +kernel

/-- The sample value is a request. -/
theorem request_value : OperationRequests.request value = .ok request := by rfl

/-- At the start the target is active and its policies are in force. -/
theorem inForce_start :
    InForce runtime services "alice@example.com" request first target start where
  author := by decide +kernel
  feature := by decide +kernel
  resolved := by decide +kernel
  active := rfl
  policy := by
    intro authorization hauthorization
    cases hauthorization
    exact ⟨none, rfl, rfl, rfl⟩

/-- The request changes none of the other rows. -/
theorem conditions_accepted : conditions accepted.2 = conditions start := conditions_create

/-- All is in force after the request. -/
theorem inForce_accepted :
    InForce runtime services "alice@example.com" request first target accepted.2 :=
  inForce_start.of_conditions conditions_accepted

/-- All is in force after the lease. -/
theorem inForce_leased :
    InForce runtime services "alice@example.com" request first target leased :=
  inForce_accepted.of_conditions conditions_lease

end Sample

open RequestRepeats.Sample in
/-- The sample request, repeated before its command is leased, is answered again. -/
theorem repeat_create_iff_sample :
    ∃ again, createOperation runtime OperationRequests.Sample.services "alice@example.com" value
        ⟨"target-2", Dispatcher.Sample.now⟩ ⟨accepted.2, accepted.2⟩ =
          .ok again ⟨accepted.2, accepted.2⟩ ∧
      again.operationId = Dispatcher.Sample.operationId := by
  obtain ⟨request', first', hrequest, hauthored, hrepeat⟩ :=
    repeat_create_iff isSha256_runtime schema_start run_accepted (List.mem_singleton_self _)
  rw [request_value] at hrequest
  cases hrequest
  rw [authored_start] at hauthored
  cases hauthored
  refine (hrepeat target inForce_accepted _).mpr ⟨rfl, rfl, rfl, fun _ => ?_⟩
  obtain ⟨op, hop, hstate⟩ := Option.map_eq_some_iff.mp accepted_leased.2.1
  obtain ⟨hqueued, hstatus⟩ := Prod.mk.inj hstate
  have hagents : accepted.2.agents = start.agents :=
    conditions_congr (·.agents) (fun _ => rfl) conditions_accepted
  have happrovals : accepted.2.operationApprovals = start.operationApprovals :=
    conditions_congr (·.operationApprovals) (fun _ => rfl) conditions_accepted
  refine ⟨op, start.agents.head (by decide), hop, ?_, hqueued, ?_, hstatus, ?_⟩
  · rw [hagents]
    rfl
  · rfl
  · unfold approvals
    rw [happrovals]
    rfl

/-- A request whose command was leased cannot be repeated, though all is in force as before. -/
theorem repeated_create_refused :
    ∃ (R : Runtime) (services : Services) (start accepted leased : Database) (value : Json)
      (created : Created) (request : OperationRequest) (first : AuthoredOperation)
      (target : TargetSnapshot) (insertion : Insertion),
      (∀ text, isSha256 (R.sha256 text) = true) ∧ Schema start ∧
      Run (Step R services 30) [start]
        [.create "alice@example.com" value start (.ok created), .lease] [leased, accepted, start] ∧
      OperationRequests.request value = .ok request ∧
      authored R services.validatePayload request "alice@example.com" start = .ok first ∧
      InForce R services "alice@example.com" request first target leased ∧
      ¬∃ again, createOperation R services "alice@example.com" value insertion ⟨leased, leased⟩ =
        .ok again ⟨leased, leased⟩ ∧ again.operationId = created.operationId := by
  refine ⟨Sample.runtime, OperationRequests.Sample.services, Sample.start, Sample.accepted.2,
    Sample.leased, Sample.value, Sample.created, Sample.request, Sample.first, Sample.target,
    ⟨"target-2", Dispatcher.Sample.now⟩, Sample.isSha256_runtime, Sample.schema_start,
    Sample.run_leased, Sample.request_value, Sample.authored_start, Sample.inForce_leased, ?_⟩
  rintro ⟨again, hagain, hid⟩
  obtain ⟨db, older, hhistory, hinv⟩ :=
    inv_run Sample.isSha256_runtime Sample.schema_start Sample.run_leased
  cases hhistory
  obtain ⟨request, first, hrequest, -, haccepted⟩ :=
    hinv.accepted "alice@example.com" Sample.value Sample.start Sample.created
      (List.mem_cons_self ..)
  rw [Sample.request_value] at hrequest
  cases hrequest
  have hfirst := haccepted.authored
  rw [Sample.authored_start] at hfirst
  cases hfirst
  obtain ⟨-, -, -, hqueued⟩ :=
    (repeat_iff Sample.request_value haccepted Sample.inForce_leased).mp ⟨again, hagain, hid⟩
  obtain ⟨op, -, hop, -, hstate, -⟩ := hqueued rfl
  have hleased := Sample.accepted_leased.2.2
  rw [show Sample.leased.operation? Dispatcher.Sample.operationId = some op from hop,
    Option.map_some, hstate] at hleased
  cases hleased

end RequestRepeats

end FrappeController
