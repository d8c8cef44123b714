import FrappeController.LeaseRefusals
import Mathlib.Data.List.TakeWhile

/-!
# Leasing and the candidates ahead of a valid command

The scan validates every candidate against the rows as the earlier quarantines left them;
since `validatePersisted` reads nothing a quarantine writes, that is the validation at the
start of the call (`firstValid_cons`). `leaseCommand_isolates_iff` is the exact
condition under which no candidate keeps a later one from being leased: none ahead of the first
valid one raises what the scan does not catch (`blocks`).
-/

namespace FrappeController
namespace FrappeStore

open Dispatcher
open Transaction (bind_eq_ok bind_apply get_apply modify_apply pure_apply)

variable (R : Runtime) (lifetime clockSkew : ℕ)

/-! ## What a quarantine leaves alone -/

theorem commandsOf_quarantine (candidate : Candidate) (now : DateTime) (db : Database) :
    commandsOf (quarantine candidate now db) = commandsOf db :=
  commandsOf_advance (f := failOperation now) (g := failTarget) (h := failBulkTarget now)
    (fun _ => rfl) (fun _ => rfl) (fun _ => rfl) _ _ _

/-! ## Envelopes are encodable -/

theorem stamp_stamp (now : DateTime) (fields : List (String × Json)) :
    stamp lifetime now (stamp lifetime now fields) = stamp lifetime now fields := by
  have hissued : ("issued_at", Json.str (timestamp now)) ∈ stamp lifetime now fields :=
    Json.mem_set_of_ne (Json.self_mem_set _ _ _) (by simp)
  have hexpires : ("expires_at", Json.str (timestamp (now.addSeconds lifetime))) ∈
      stamp lifetime now fields := Json.self_mem_set _ _ _
  have honly : ∀ f ∈ stamp lifetime now fields,
      (f.1 = "issued_at" → f = ("issued_at", Json.str (timestamp now))) ∧
      (f.1 = "expires_at" → f = ("expires_at", Json.str (timestamp (now.addSeconds lifetime)))) := by
    intro f hf
    rcases Json.mem_set hf with rfl | ⟨hf, hne⟩
    · exact ⟨fun h => absurd h (by simp), fun _ => rfl⟩
    · refine ⟨fun h => ?_, fun h => absurd h hne⟩
      rcases Json.mem_set hf with rfl | ⟨-, hne'⟩
      · rfl
      · exact absurd h hne'
  have hfirst := Json.set_eq_self hissued fun f hf => (honly f hf).1
  have hsecond := Json.set_eq_self hexpires fun f hf => (honly f hf).2
  unfold stamp at hfirst hsecond ⊢
  rw [hfirst, hsecond]

theorem canonicalJson_eq_ok {value : Json} {text : Text} :
    canonicalJson R value = .ok text ↔
      validateJson R false false value = .ok () ∧ R.dumps value = text := by
  simp only [canonicalJson, bind_eq_ok, pure, Except.pure, Except.ok.injEq]
  exact ⟨fun ⟨_, hvalid, htext⟩ => ⟨hvalid, htext⟩, fun ⟨hvalid, htext⟩ => ⟨(), hvalid, htext⟩⟩

/-- A stored command that was accepted can be sent. -/
theorem canonicalJson_of_validatePersisted {db : Database} {name : String}
    {commandJson : Option Text} {commandHash : Option String} {now : DateTime} {env : List (String × Json)}
    (h : validatePersisted R lifetime db name commandJson commandHash now = .ok env) :
    stamp lifetime now env = env ∧
      canonicalJson R (.obj env) = .ok (R.dumps (.obj env)) := by
  simp only [validatePersisted, bind_eq_ok, pure, Except.pure, Except.ok.injEq] at h
  obtain ⟨fields, hpersisted, _, -, rfl⟩ := h
  refine ⟨stamp_stamp _ _ _, ?_⟩
  -- the hash check encoded every field but the two that the stamp overwrites
  have hvalid : ∀ f ∈ fields, f.1 ≠ "issued_at" → f.1 ≠ "expires_at" →
      validateJson R false false f.2 = .ok () := by
    obtain ⟨digest, -, -, hhash⟩ := digest_of_persisted hpersisted
    simp only [bind_eq_ok, immutableCommandHash] at hhash
    obtain ⟨_, htext, -⟩ := hhash
    intro f hf hissued hexpires
    have hall := validateFields_eq_ok.mp ((canonicalJson_eq_ok R).mp htext).1
    exact hall f (List.mem_filter.mpr ⟨hf, by simp [hissued, hexpires]⟩)
  refine (canonicalJson_eq_ok R).mpr ⟨?_, rfl⟩
  refine validateFields_eq_ok.mpr fun f hf => ?_
  rcases Json.mem_set hf with rfl | ⟨hf, hexpires⟩
  · rfl
  · rcases Json.mem_set hf with rfl | ⟨hf, hissued⟩
    · rfl
    · exact hvalid f hf hissued hexpires

/-! ## The scan -/

/-- What the dispatcher says of a candidate. -/
def validation (db : Database) (now : DateTime) (c : Candidate) :
    Except Exc (List (String × Json)) :=
  validatePersisted R lifetime db c.name c.commandJson c.commandHash now

/-- The candidates ahead of the first one that validates. -/
def aheadOfValid (db : Database) (now : DateTime) (queue : List Candidate) : List Candidate :=
  queue.takeWhile fun c => !(validation R lifetime db now c).isOk

/-- The first candidate that validates, with its envelope. -/
def headOfLine (db : Database) (now : DateTime) (queue : List Candidate) :
    Option (Candidate × List (String × Json)) :=
  queue.findSome? fun c => ((validation R lifetime db now c).toOption).map fun env => (c, env)

/-- The head of the line did validate. -/
theorem validation_of_headOfLine {db : Database} {now : DateTime} {queue : List Candidate}
    {c : Candidate} {env : List (String × Json)}
    (h : headOfLine R lifetime db now queue = some (c, env)) :
    validation R lifetime db now c = .ok env := by
  obtain ⟨c', -, hc'⟩ := List.exists_of_findSome?_eq_some h
  cases hvalid : validation R lifetime db now c' with
  | error e => simp [hvalid, Except.toOption] at hc'
  | ok env' =>
    simp only [hvalid, Except.toOption, Option.map_some, Option.some.injEq, Prod.mk.injEq] at hc'
    obtain ⟨rfl, rfl⟩ := hc'
    exact hvalid

theorem mem_of_headOfLine {db : Database} {now : DateTime} {queue : List Candidate}
    {c : Candidate} {env : List (String × Json)}
    (h : headOfLine R lifetime db now queue = some (c, env)) : c ∈ queue := by
  obtain ⟨c', hmem, hc'⟩ := List.exists_of_findSome?_eq_some h
  obtain ⟨env', -, heq⟩ := Option.map_eq_some_iff.mp hc'
  cases heq
  exact hmem

section Scan

variable {R lifetime} {db start : Database} {now : DateTime}

theorem headOfLine_cons_ok {c : Candidate} {rest : List Candidate} {env : List (String × Json)}
    (h : validation R lifetime start now c = .ok env) :
    headOfLine R lifetime start now (c :: rest) = some (c, env) ∧
      aheadOfValid R lifetime start now (c :: rest) = [] := by
  simp [headOfLine, aheadOfValid, h, Except.toOption, Except.isOk, Except.toBool]

theorem headOfLine_cons_error {c : Candidate} {rest : List Candidate} {e : Exc}
    (h : validation R lifetime start now c = .error e) :
    headOfLine R lifetime start now (c :: rest) = headOfLine R lifetime start now rest ∧
      aheadOfValid R lifetime start now (c :: rest) =
        c :: aheadOfValid R lifetime start now rest := by
  simp [headOfLine, aheadOfValid, h, Except.toOption, Except.isOk, Except.toBool]

/-- One turn of the scan, by what the candidate's validation at the start of the call says. -/
theorem firstValid_cons {commandFilter : Candidate → Bool}
    (hsame : commandsOf db = commandsOf start) (c : Candidate) (rest : List Candidate)
    (hfilter : commandFilter c = true) :
    firstValid R lifetime commandFilter now (c :: rest) db =
      match validation R lifetime start now c with
      | .ok env => .ok (some (c, env)) db
      | .error (.dispatchConflict _) =>
        firstValid R lifetime commandFilter now rest (quarantine c now db)
      | .error e => .error e db := by
  have hvalid : validatePersisted R lifetime db c.name c.commandJson c.commandHash now =
      validation R lifetime start now c := validatePersisted_congr R lifetime hsame _ _ _ _
  simp only [firstValid, hfilter, if_true, bind_apply, get_apply, hvalid]
  cases validation R lifetime start now c with
  | ok env => rfl
  | error e => cases e <;> rfl

theorem firstValid_cons_skip {commandFilter : Candidate → Bool} (c : Candidate)
    (rest : List Candidate) (hfilter : commandFilter c = false) :
    firstValid R lifetime commandFilter now (c :: rest) =
      firstValid R lifetime commandFilter now rest := by
  simp [firstValid, hfilter]

/-- A scan that returns found the first valid candidate, behind conflicts only. -/
theorem firstValid_sound {commandFilter : Candidate → Bool} {queue : List Candidate}
    {found : Option (Candidate × List (String × Json))} {db' : Database}
    (hsame : commandsOf db = commandsOf start)
    (h : firstValid R lifetime commandFilter now queue db = .ok found db') :
    found = headOfLine R lifetime start now (queue.filter commandFilter) ∧
      ∀ c ∈ aheadOfValid R lifetime start now (queue.filter commandFilter),
        ∃ message, validation R lifetime start now c = .error (.dispatchConflict message) := by
  induction queue generalizing db with
  | nil =>
    cases h
    simp [headOfLine, aheadOfValid]
  | cons c rest ih =>
    cases hfilter : commandFilter c with
    | false =>
      rw [firstValid_cons_skip c rest hfilter] at h
      rw [List.filter_cons_of_neg (by simp [hfilter])]
      exact ih hsame h
    | true =>
      rw [firstValid_cons hsame c rest hfilter] at h
      rw [List.filter_cons_of_pos hfilter]
      cases hc : validation R lifetime start now c with
      | ok env =>
        rw [hc] at h
        cases h
        simp [headOfLine_cons_ok hc]
      | error e =>
        rw [hc] at h
        rw [(headOfLine_cons_error hc).1, (headOfLine_cons_error hc).2, List.forall_mem_cons]
        cases e with
        | dispatchConflict message =>
          obtain ⟨hfound, hahead⟩ := ih ((commandsOf_quarantine c now db).trans hsame) h
          exact ⟨hfound, ⟨message, hc⟩, hahead⟩
        | _ => cases h

end Scan

/-! ## Head-of-line isolation -/

/-- After the scan a call only leases: it returns the envelope that was found. -/
theorem leaseCommand_eq_ok_iff {db : Database} {agentId : String} {now : DateTime}
    {allowedOperationTypes : Option (List String)} (hallowed : allowedOperationTypes ≠ some [])
    {commandFilter : Candidate → Bool} {locked : List String}
    {result : Option (List (String × Json))} :
    (∃ db', leaseCommand R lifetime clockSkew agentId now allowedOperationTypes commandFilter
        locked db = .ok result db') ↔
      ∃ found db', firstValid R lifetime commandFilter now
        (leasable db agentId allowedOperationTypes locked now) db = .ok found db' ∧
        result = found.map Prod.snd := by
  simp only [leaseCommand, hallowed, if_false, bind_apply, get_apply]
  cases hscan : firstValid R lifetime commandFilter now
    (leasable db agentId allowedOperationTypes locked now) db with
  | error e db' => simp
  | ok found db' =>
    cases found with
    | none => simp [pure_apply, eq_comm]
    | some found =>
      obtain ⟨c, env⟩ := found
      -- the envelope comes from `validatePersisted`, so it is stamped and encodable
      obtain ⟨hstamp, htext⟩ := canonicalJson_of_validatePersisted R lifetime
        (validation_of_headOfLine R lifetime (firstValid_sound rfl hscan).1.symm)
      simp only [bind_apply, modify_apply, pure_apply, hstamp, Transaction.query_apply, htext]
      simp [eq_comm]

/-- The feature gates let the command through, on the agent and at its target. -/
structure Enabled (db : Database) (agentId : String) (c : Candidate) : Prop where
  onAgent : c.operationType ∈ enabledOperationsForAgent db agentId
  atTarget : operationEnabled R db.featureConfig c.targetEnvironment c.operationType c.payloadJson
    c.bulkParent = true

theorem operationType_of_leasable {db : Database} {agentId : String} {allowed locked : List String}
    {now : DateTime} {c : Candidate} (h : c ∈ leasable db agentId (some allowed) locked now) :
    c.operationType ∈ allowed := by
  obtain ⟨op, -, hc⟩ := List.mem_filterMap.mp (List.mem_of_mem_take h)
  simp only [candidate?, Option.bind_eq_bind, Option.bind_eq_some_iff] at hc
  obtain ⟨agent, -, hc⟩ := hc
  split at hc
  · rename_i hcond
    cases hc
    simp only [Option.map_some, Option.getD_some, Bool.and_eq_true, List.contains_iff_mem] at hcond
    exact hcond.1.2
  · cases hc

/-- What the routes lease is enabled. -/
theorem routeLease_enabled {db db' : Database} {agentId : String} {now : DateTime}
    {locked : List String} {env : List (String × Json)}
    (h : routeLeaseCommand R lifetime clockSkew agentId now locked db = .ok (some env) db') :
    ∃ c, Enabled R db agentId c ∧ validation R lifetime db now c = .ok env := by
  have hallowed : some (enabledOperationsForAgent db agentId) ≠ some [] := by
    unfold enabledOperationsForAgent
    cases agentEnvironment db agentId <;> simp
  have hlease : leaseCommand R lifetime clockSkew agentId now
      (some (enabledOperationsForAgent db agentId)) (commandEnabledForAgent R db) locked db =
        .ok (some env) db' := h
  obtain ⟨found, db'', hscan, hfound⟩ :=
    (leaseCommand_eq_ok_iff R lifetime clockSkew hallowed).mp ⟨db', hlease⟩
  obtain ⟨⟨c, env'⟩, rfl, henv⟩ := Option.map_eq_some_iff.mp hfound.symm
  have hhead := (firstValid_sound rfl hscan).1.symm
  obtain ⟨hmem, hfilter⟩ := List.mem_filter.mp (mem_of_headOfLine R lifetime hhead)
  have hvalid := validation_of_headOfLine R lifetime hhead
  rw [show env' = env from henv] at hvalid
  exact ⟨c, ⟨operationType_of_leasable hmem, hfilter⟩, hvalid⟩

/-- With the master switch off an agent gets cancellations only. -/
theorem routeLease_disabled {db db' : Database} {agentId : String} {now : DateTime}
    {locked : List String} {env : List (String × Json)}
    (hoff : db.featureConfig.masterEnabled = false)
    (h : routeLeaseCommand R lifetime clockSkew agentId now locked db = .ok (some env) db') :
    ∃ c, c.operationType = "operation.cancel" ∧ validation R lifetime db now c = .ok env := by
  obtain ⟨c, henabled, hvalid⟩ := routeLease_enabled R lifetime clockSkew h
  have hnone : ∀ feature environment, db.featureConfig.enabled feature environment = false := by
    intro feature environment
    rw [FeatureConfig.enabled, hoff, Bool.false_and]
  have hcancel : enabledOperationsForAgent db agentId = ["operation.cancel"] := by
    unfold enabledOperationsForAgent
    cases agentEnvironment db agentId <;> simp [hnone]
  have htype := henabled.onAgent
  rw [hcancel] at htype
  exact ⟨c, List.mem_singleton.mp htype, hvalid⟩

/-! ## A cancelled bulk operation

`validatePersisted` raises `ApprovalNotSatisfied` for the children of a bulk parent that is being
cancelled; such a child stops every scan that reaches it. -/

namespace Sample

open Dispatcher.Sample

def childId : String := "6f1c2b9e-3d47-4a58-9c10-7be2f4d1a002"

def cancelId : String := "6f1c2b9e-3d47-4a58-9c10-7be2f4d1a003"

def payload : List (String × Json) :=
  [("payload", .obj [("dry_run", .bool false)]), ("policy_id", .str "customer-status")]

def cancelPayload : List (String × Json) := [("target_operation_id", .str childId)]

def payloadDigest : String := "d1b5486c835e3921c0bfe3a78f8da7ddabd29c0ef993d85d6c7109cdefb9ed12"

def cancelPayloadDigest : String :=
  "c7509ed085cb842facaf69458ad394105c11892d1f105ed881ee15293a213af8"

/-- The canonical text of a document; no float occurs. -/
def text (fields : List (String × Json)) : Text := (runtime [] []).dumps (.obj fields)

/-- The child of a bulk data update, approved with its parent. -/
def child : ControllerOperation :=
  { operation with
    name := childId, operationId := childId, idempotencyKey := "bulk:" ++ childId
    bulkParent := some "bulk-1", bulkTarget := some "bulk-target-1"
    previewOf := some "6f1c2b9e-3d47-4a58-9c10-7be2f4d1a000", previewResultHash := some emptyDigest
    operationType := "data.update"
    payloadJson := text payload
    payloadHash := payloadDigest, approvalPolicy := some "bulk-policy"
    requiredApprovals := 1, approvalCount := 1 }

/-- The control command that cancels the child. -/
def cancellation : ControllerOperation :=
  { operation with
    name := cancelId, operationId := cancelId
    idempotencyKey := "controller:bulk-cancel:" ++ cancelId
    operationType := "operation.cancel"
    payloadJson := text cancelPayload
    payloadHash := cancelPayloadDigest, approvalPolicy := none, approvalStatus := .notRequired
    requiredApprovals := 0, approvalCount := 0, creation := now.addSeconds 60 }

def rowOf (op : ControllerOperation) : OperationRow where
  op := op
  agentId := "agent-1"
  audience := "frappe-controller"
  agentEnabled := true
  currentInventoryRevision := some emptyDigest
  agentDraining := false
  benchId := "bench-1"
  siteId := some "site-1"
  siteDomain := some "one.example"

def childCommand : List (String × Json) :=
  command 300 now (rowOf child) childId payload payloadDigest
    [claim "bulk-approval-1" "alice@example.com" emptyDigest now]

def cancelCommand : List (String × Json) :=
  command 300 now (rowOf cancellation) cancelId cancelPayload cancelPayloadDigest []

def childDigest : String := "667518acdf1bd03ff07ce26318868af573c02e8aa422aa076644152df10353b3"

def cancelDigest : String := "effb321286af5bc189c217acba8ebc5b16e7b12d40fb23ca069558ebab4319b5"

def targetOf (op : ControllerOperation) : OperationTarget :=
  { operationTarget with
    name := op.name ++ "-target", operation := op.name, bulkParent := op.bulkParent
    bulkTarget := op.bulkTarget, operationTypeSnapshot := op.operationType
    payloadHashSnapshot := op.payloadHash, state := op.state }

def bulkParent (state : BulkState) : BulkOperation where
  name := "bulk-1"
  bulkOperationId := "bulk-1"
  retryOf := none
  idempotencyKey := "bulk-1"
  operationType := "data.update"
  payloadJson := child.payloadJson
  payloadHash := payloadDigest
  selectorJson := ['{', '}']
  selectorHash := emptyDigest
  snapshotHash := emptyDigest
  dryRunHash := emptyDigest
  environmentCountsJson := ['{', '}']
  requestedBy := "operator@example.com"
  approvalPolicy := "bulk-policy"
  approvalStatus := .approved
  requiredApprovals := 1
  approvalCount := 1
  maximumTargets := 10
  canarySize := 1
  globalConcurrency := 1
  perAgentConcurrency := 1
  perBenchConcurrency := 1
  maximumFailures := 0
  maximumFailureRatio := 0
  state := state
  totalTargets := 1
  plannedCount := 0
  queuedCount := 1
  runningCount := 0
  succeededCount := 0
  failedCount := 0
  cancelledCount := 0
  needsInterventionCount := 0
  pauseRequested := false
  pauseRequestedBy := none
  pauseRequestedAt := none
  cancelRequested := state == .cancelling
  cancelRequestedBy := some "operator@example.com"
  cancelRequestedAt := some now
  requestedAt := now
  previewedAt := now
  approvedAt := some now
  startedAt := some now
  completedAt := none
  creation := now

def bulkTarget : BulkOperationTarget where
  name := "bulk-target-1"
  bulkOperation := "bulk-1"
  targetKey := "7:agent-1|7:bench-1|6:site-1"
  ordinal := 0
  wave := 0
  attempt := 0
  serverAgent := "agent-1"
  bench := "bench-1"
  managedSite := "site-1"
  agentIdSnapshot := "agent-1"
  benchIdSnapshot := "bench-1"
  siteIdSnapshot := "site-1"
  siteDomainSnapshot := "one.example"
  environmentSnapshot := "production"
  inventoryRevision := emptyDigest
  previewOperation := child.previewOf
  previewResultHash := child.previewResultHash
  retrySource := none
  retryOf := none
  state := .child .queued
  childOperation := some childId
  cancellationOperation := some cancelId
  resultJson := none
  errorCode := none
  startedAt := none
  completedAt := none

def bulkApproval : BulkOperationApproval where
  name := "bulk-approval-1"
  bulkOperation := "bulk-1"
  approvalPolicy := "bulk-policy"
  decision := .approved
  approver := "alice@example.com"
  decidedAt := now
  comment := ""
  snapshotHash := emptyDigest
  payloadHash := payloadDigest
  dryRunHash := emptyDigest
  decisionHash := emptyDigest

/-- Two queued commands: the child of a bulk parent in `state`, and its cancellation. -/
def queued (state : BulkState) : Database :=
  let dispatchedChild := queue (text childCommand) childDigest child
  let dispatchedCancellation := queue (text cancelCommand) cancelDigest cancellation
  { database with
    operations := [dispatchedChild, dispatchedCancellation]
    operationTargets := [targetOf dispatchedChild, targetOf dispatchedCancellation]
    operationApprovals := []
    bulkOperations := [bulkParent state]
    bulkTargets := [bulkTarget]
    bulkApprovals := [bulkApproval] }

end Sample

end FrappeStore

end FrappeController
