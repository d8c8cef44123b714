import FrappeController.Dispatcher

/-!
# What a built command says about its approvals

`envelope_approvals_sound`: a command is only ever built from sufficient, independent,
unrejected and correctly bound approval decisions, and it lists exactly those. The second
half is the frame of the lease-time check: `validateSnapshot` reads no column that leasing,
quarantine or a result writes (`validateSnapshot_commandsOf`).
-/

namespace FrappeController
namespace Dispatcher

open Transaction (bind_eq_ok)

/-! ## The approved rows -/

/-- The approved decisions on an operation, in the order of the query. -/
def approvedRows (db : Database) (operation : String) : List OperationApproval :=
  (approvals db operation).filter (·.decision == .approved)

/-- The approved decisions on a bulk parent, in the order of the query. -/
def bulkApprovedRows (db : Database) (parent : String) : List BulkOperationApproval :=
  (bulkApprovals db parent).filter (·.decision == .approved)

theorem mem_approvals {db : Database} {operation : String} {a : OperationApproval} :
    a ∈ approvals db operation ↔ a ∈ db.operationApprovals ∧ a.operation = operation := by
  simp [approvals, List.mem_insertionSort]

theorem mem_bulkApprovals {db : Database} {parent : String} {a : BulkOperationApproval} :
    a ∈ bulkApprovals db parent ↔ a ∈ db.bulkApprovals ∧ a.bulkOperation = parent := by
  simp [bulkApprovals, List.mem_insertionSort]

/-! ## The claim loop -/

/-- What the loop establishes of its rows, given the approvers already seen: each passes its
check, no approver repeats, and the claims are theirs in order. -/
theorem collectClaims_eq_ok {α : Type} {check : α → List String → Except Exc Unit}
    {approver : α → String} {toClaim : α → Json} {Bound : α → Prop}
    {rows : List α} {approvers : List String} {claims : List Json}
    (h : collectClaims check approver toClaim rows approvers = .ok claims)
    (hcheck : ∀ a approvers, check a approvers = .ok () → Bound a ∧ approver a ∉ approvers) :
    claims = rows.map toClaim ∧ (∀ a ∈ rows, Bound a) ∧ (rows.map approver).Nodup
      ∧ ∀ a ∈ rows, approver a ∉ approvers := by
  induction rows generalizing approvers claims with
  | nil =>
    cases h
    simp
  | cons a rest ih =>
    simp only [collectClaims, bind_eq_ok, pure, Except.pure, Except.ok.injEq] at h
    obtain ⟨_, ha, tail, htail, rfl⟩ := h
    obtain ⟨hbound, hfresh⟩ := hcheck a approvers ha
    obtain ⟨rfl, hrest, hnodup, hnew⟩ := ih htail
    refine ⟨rfl, ?_, ?_, ?_⟩
    · simpa [hbound] using hrest
    · -- a later row with this approver would have been seen in the extended set
      rw [List.map_cons, List.nodup_cons]
      refine ⟨fun hmem => ?_, hnodup⟩
      obtain ⟨b, hb, heq⟩ := List.mem_map.mp hmem
      exact hnew b hb (heq ▸ List.mem_cons_self)
    · intro b hb
      rcases List.mem_cons.mp hb with rfl | hb
      · exact hfresh
      · exact fun hmem => hnew b hb (List.mem_cons_of_mem _ hmem)

/-! ## Soundness of the approvals -/

/-- Enough decisions, by different users, none of them the requester, each properly bound. -/
structure SoundDecisions {α : Type} (rows : List α) (approver : α → String) (Bound : α → Prop)
    (requester : String) (required : ℤ) : Prop where
  enough : required ≤ rows.length
  distinct : (rows.map approver).Nodup
  independent : ∀ a ∈ rows, approver a ≠ requester
  bound : ∀ a ∈ rows, Bound a

/-- A decision on the operation as it is now. -/
structure BoundToOperation (op : ControllerOperation) (target : OperationTarget)
    (a : OperationApproval) : Prop where
  policy : some a.approvalPolicy = op.approvalPolicy
  payload : a.payloadHashSnapshot = op.payloadHash
  targetKey : a.targetKeySnapshot = target.targetKey
  preview : orNone a.previewResultHashSnapshot = orNone op.previewResultHash

/-- A decision on the bulk parent as it is now, which the child carries. -/
structure BoundToParent (op : ControllerOperation) (parent : BulkOperation)
    (a : BulkOperationApproval) : Prop where
  policy : a.approvalPolicy = parent.approvalPolicy ∧ some a.approvalPolicy = op.approvalPolicy
  snapshot : a.snapshotHash = parent.snapshotHash
  payload : a.payloadHash = parent.payloadHash ∧ a.payloadHash = op.payloadHash
  dryRun : a.dryRunHash = parent.dryRunHash

/-- The approvals behind a command of an operation without a bulk parent. -/
structure SingleApproved (db : Database) (op : ControllerOperation) (target : OperationTarget)
    (claims : Json) : Prop where
  decisions : SoundDecisions (approvedRows db op.name) (·.approver)
    (BoundToOperation op target) op.requestedBy op.requiredApprovals
  unrejected : ∀ a ∈ db.operationApprovals, a.operation = op.name → a.decision ≠ .rejected
  claims_eq : claims = .arr ((approvedRows db op.name).map approvalClaim)

/-- The approvals behind a command of a bulk child. -/
structure BulkApproved (db : Database) (op : ControllerOperation) (claims : Json) : Prop where
  parent : ∃ parent, op.bulkParent.bind db.bulkOperation? = some parent ∧
    SoundDecisions (bulkApprovedRows db parent.name) (·.approver) (BoundToParent op parent)
      op.requestedBy op.requiredApprovals ∧
    (∀ a ∈ db.bulkApprovals, a.bulkOperation = parent.name → a.decision ≠ .rejected) ∧
    claims = .arr ((bulkApprovedRows db parent.name).map bulkApprovalClaim)

/-- What a command's approval claims stand for. -/
def ApprovalsSound (db : Database) (op : ControllerOperation) (target : OperationTarget)
    (claims : Json) : Prop :=
  (op.requiredApprovals = 0 ∧ op.approvalStatus = .notRequired ∧ claims = .arr [])
    ∨ (truthy op.bulkParent = false ∧ SingleApproved db op target claims)
    ∨ (truthy op.bulkParent = true ∧ BulkApproved db op claims)

theorem checkApproval_eq_ok {op : ControllerOperation} {t : OperationTarget}
    {a : OperationApproval} {approvers : List String}
    (h : checkApproval op t a approvers = .ok ()) :
    (BoundToOperation op t a ∧ a.approver ≠ op.requestedBy) ∧ a.approver ∉ approvers := by
  simp only [checkApproval, bind_eq_ok, ensure_eq_ok, exists_const] at h
  obtain ⟨hpolicy, hwho, -, hevidence⟩ := h
  simp only [beq_iff_eq, Bool.not_eq_eq_eq_not, Bool.not_true, Bool.or_eq_false_iff,
    beq_eq_false_iff_ne, List.contains_eq_mem, decide_eq_false_iff_not, Bool.and_eq_true]
    at hpolicy hwho hevidence
  obtain ⟨⟨hpayload, hkey⟩, hpreview⟩ := hevidence
  exact ⟨⟨⟨hpolicy, hpayload, hkey, hpreview⟩, hwho.1⟩, hwho.2⟩

theorem singleApprovalClaims_eq_ok {db : Database} {op : ControllerOperation}
    {t : OperationTarget} {claims : List Json}
    (h : singleApprovalClaims db op t = .ok claims) :
    (op.requiredApprovals = 0 ∧ op.approvalStatus = .notRequired ∧ claims = [])
      ∨ SingleApproved db op t (.arr claims) := by
  simp only [singleApprovalClaims, bind_eq_ok, ensure_eq_ok, exists_const] at h
  obtain ⟨hrejected, h⟩ := h
  by_cases hzero : op.requiredApprovals = 0
  · simp only [hzero, if_true, bind_eq_ok, ensure_eq_ok, exists_const, beq_iff_eq] at h
    obtain ⟨hstatus, hclaims⟩ := h
    cases hclaims
    exact .inl ⟨hzero, hstatus, rfl⟩
  · simp only [hzero, if_false, bind_eq_ok, ensure_eq_ok, exists_const, Bool.and_eq_true,
      decide_eq_true_eq] at h
    obtain ⟨⟨-, henough⟩, -, hcollect⟩ := h
    obtain ⟨rfl, hbound, hnodup, -⟩ :=
      collectClaims_eq_ok hcollect fun _ _ => checkApproval_eq_ok
    refine .inr ⟨⟨henough, hnodup, fun a ha => (hbound a ha).2, fun a ha => (hbound a ha).1⟩,
      ?_, rfl⟩
    intro a ha hop hdecision
    have hmem : a ∈ approvals db op.name := mem_approvals.mpr ⟨ha, hop⟩
    simp only [Bool.not_eq_eq_eq_not, Bool.not_true, List.any_eq_false, beq_iff_eq] at hrejected
    exact hrejected a hmem hdecision

theorem checkBulkApproval_eq_ok {op : ControllerOperation} {parent : BulkOperation}
    {a : BulkOperationApproval} {approvers : List String}
    (hpolicy : some parent.approvalPolicy = op.approvalPolicy)
    (hpayload : parent.payloadHash = op.payloadHash)
    (h : checkBulkApproval parent a approvers = .ok ()) :
    (BoundToParent op parent a ∧ a.approver ≠ parent.requestedBy) ∧ a.approver ∉ approvers := by
  simp only [checkBulkApproval, ensure_eq_ok, Bool.and_eq_true, beq_iff_eq,
    Bool.not_eq_eq_eq_not, Bool.not_true, beq_eq_false_iff_ne, List.contains_eq_mem,
    decide_eq_false_iff_not] at h
  obtain ⟨⟨⟨⟨⟨⟨hp, hself⟩, hseen⟩, hsnapshot⟩, hhash⟩, hdry⟩, -⟩ := h
  exact ⟨⟨⟨⟨hp, hp ▸ hpolicy⟩, hsnapshot, ⟨hhash, hhash.trans hpayload⟩, hdry⟩, hself⟩, hseen⟩

theorem bulkParentRow?_eq_some {db : Database} {op : ControllerOperation} {parent : BulkOperation}
    {preview : Option String} (h : bulkParentRow? db op = some (parent, preview)) :
    op.bulkParent.bind db.bulkOperation? = some parent := by
  simp only [bulkParentRow?, Option.bind_eq_bind, Option.bind_eq_some_iff] at h
  obtain ⟨p, hp, t, -, h⟩ := h
  split at h
  · cases h
    simpa [Option.bind_eq_some_iff] using hp
  · cases h

theorem bulkApprovalClaims_eq_ok {db : Database} {op : ControllerOperation} {claims : List Json}
    (h : bulkApprovalClaims db op = .ok claims) : BulkApproved db op (.arr claims) := by
  unfold bulkApprovalClaims at h
  split at h
  · cases h
  · rename_i parent preview hrow
    simp only [bind_eq_ok, ensure_eq_ok, exists_const] at h
    obtain ⟨hbinding, -, hrejected, hthreshold, hcollect⟩ := h
    simp only [bulkBinding, Bool.and_eq_true, beq_iff_eq] at hbinding
    obtain ⟨⟨⟨⟨⟨⟨⟨⟨hrequester, hpolicy⟩, -⟩, hpayload⟩, -⟩, -⟩, -⟩, hrequired⟩, -⟩ := hbinding
    obtain ⟨rfl, hbound, hnodup, -⟩ :=
      collectClaims_eq_ok hcollect fun _ _ => checkBulkApproval_eq_ok hpolicy hpayload
    simp only [Bool.and_eq_true, decide_eq_true_eq] at hthreshold
    refine ⟨parent, bulkParentRow?_eq_some hrow, ⟨?_, hnodup, ?_, ?_⟩, ?_, rfl⟩
    · rw [← hrequired]
      exact hthreshold.1.2
    · exact fun a ha => hrequester ▸ (hbound a ha).2
    · exact fun a ha => (hbound a ha).1
    · intro a ha hop hdecision
      have hmem : a ∈ bulkApprovals db parent.name := mem_bulkApprovals.mpr ⟨ha, hop⟩
      simp only [Bool.not_eq_eq_eq_not, Bool.not_true, List.any_eq_false, beq_iff_eq] at hrejected
      exact hrejected a hmem hdecision

theorem approvalClaims_eq_ok {db : Database} {op : ControllerOperation} {t : OperationTarget}
    {claims : List Json} (h : approvalClaims db op t = .ok claims) :
    ApprovalsSound db op t (.arr claims) := by
  unfold approvalClaims at h
  split at h
  · rename_i hbulk
    exact .inr (.inr ⟨hbulk, bulkApprovalClaims_eq_ok h⟩)
  · rename_i hbulk
    rcases singleApprovalClaims_eq_ok h with ⟨hzero, hstatus, rfl⟩ | hsingle
    · exact .inl ⟨hzero, hstatus, rfl⟩
    · exact .inr (.inl ⟨by simpa using hbulk, hsingle⟩)

/-! ## Commands -/

theorem checked_eq_ok {R : Runtime} {db : Database} {name operationId payloadHash : String}
    {row : OperationRow} {fields : List (String × Json)} {t : OperationTarget}
    (h : checked R db name = .ok (row, operationId, fields, payloadHash, t)) :
    operationRow? db name = some row ∧ target db row.op.name = .ok t := by
  unfold checked at h
  split at h
  · cases h
  · rename_i row' hrow
    simp only [bind_eq_ok, ensure_eq_ok, exists_const] at h
    obtain ⟨-, -, -, h⟩ := h
    split at h
    · cases h
    · simp only [bind_eq_ok, ensure_eq_ok, exists_const] at h
      obtain ⟨-, -, payload, -, t', ht, -, h⟩ := h
      -- both ends of the inventory check return the row and target read above
      split at h
      · cases h
        exact ⟨hrow, ht⟩
      · simp only [bind_eq_ok, ensure_eq_ok, exists_const] at h
        obtain ⟨-, h⟩ := h
        cases h
        exact ⟨hrow, ht⟩

theorem envelope_eq_ok {R : Runtime} {lifetime : ℕ} {db : Database} {name : String}
    {now : DateTime} {env : List (String × Json)} (h : envelope R lifetime db name now = .ok env) :
    ∃ row operationId fields payloadHash t claims,
      operationRow? db name = some row ∧ target db row.op.name = .ok t ∧
      approvalClaims db row.op t = .ok claims ∧
      env = command lifetime now row operationId fields payloadHash claims := by
  simp only [envelope, bind_eq_ok, Prod.exists] at h
  obtain ⟨row, operationId, fields, payloadHash, t, hchecked, claims, hclaims, henv⟩ := h
  obtain ⟨hrow, ht⟩ := checked_eq_ok hchecked
  cases henv
  exact ⟨row, operationId, fields, payloadHash, t, claims, hrow, ht, hclaims, rfl⟩

@[simp] theorem command_approval_claims {lifetime : ℕ} {now : DateTime} {row : OperationRow}
    {operationId payloadHash : String} {fields : List (String × Json)} {claims : List Json} :
    Json.get (command lifetime now row operationId fields payloadHash claims) "approval_claims"
      = .arr claims := by
  simp [command, Json.get, List.lookup_cons]

/-! ## A sample operation

One migration of one site, approved by two users; other modules vary these rows. -/

namespace Sample

/-- 2026-01-05T00:00:00Z -/
def now : DateTime := ⟨63903168000000000⟩

/-- A runtime by the digests and the decoded documents of the texts that occur. -/
def runtime (digests : List (Text × String)) (documents : List (Text × Json)) : Runtime where
  sha256 text := (digests.lookup text).getD ""
  loads text := documents.lookup text
  unread _ := .decode
  uuid text := if text.length = 36 then some text.toLower else none
  uuid5 _ _ := ""
  casefold text := text.toLower
  lower text := text.toLower
  fromisoformat _ := .invalid
  floatRepr _ := ""

/-- The digest of `{}`. -/
def emptyDigest : String := "44136fa355b3678a1146ad16f7e8649e94fb4fc21fe77e8310c060f61caaff8a"

def operationId : String := "6f1c2b9e-3d47-4a58-9c10-7be2f4d1a001"

def agent : ServerAgent where
  name := "agent-1"
  agentId := "agent-1"
  environment := "production"
  enabled := true
  audience := "frappe-controller"
  drainRequested := false
  inventoryDigest := some emptyDigest

def bench : Bench where
  name := "bench-1"
  benchId := "bench-1"
  serverAgent := "agent-1"
  requiredAppsJson := none

def site : ManagedSite where
  name := "site-1"
  siteId := "site-1"
  domain := "one.example"
  serverAgent := "agent-1"
  bench := "bench-1"
  environment := "production"

def policy : ApprovalPolicy where
  name := "two-approvers"
  enabled := true
  environment := "production"
  operationPattern := "site.*"
  minimumApprovals := 2
  requireBackup := false
  bulkThreshold := 0
  maximumTargets := 10

def operation : ControllerOperation where
  name := operationId
  operationId := operationId
  idempotencyKey := "site.migrate:" ++ operationId
  protocolVersion := "1.0"
  serverAgent := "agent-1"
  bench := "bench-1"
  managedSite := some "site-1"
  bulkParent := none
  bulkTarget := none
  retryOf := none
  previewOf := none
  previewResultHash := none
  operationType := "site.migrate"
  payloadJson := ['{', '}']
  payloadHash := emptyDigest
  requestedBy := "operator@example.com"
  approvalPolicy := some "two-approvers"
  approvalStatus := .approved
  requiredApprovals := 2
  approvalCount := 2
  state := .awaitingApproval
  commandJson := none
  commandHash := none
  issuedAt := none
  expiresAt := none
  leaseExpiresAt := none
  lastEventSequence := 0
  resultJson := none
  resultHash := none
  credentialReceivedAt := none
  errorCode := none
  startedAt := none
  completedAt := none
  creation := now

def operationTarget : OperationTarget where
  name := "target-1"
  operation := operationId
  targetKey := "agent-1/bench-1/site-1"
  serverAgent := "agent-1"
  bench := "bench-1"
  managedSite := some "site-1"
  bulkParent := none
  bulkTarget := none
  retryOf := none
  siteDomainSnapshot := some "one.example"
  operationTypeSnapshot := "site.migrate"
  payloadHashSnapshot := emptyDigest
  inventoryRevisionSnapshot := some emptyDigest
  state := .awaitingApproval
  attempt := 0
  resultJson := none
  errorCode := none

def approval (name approver : String) : OperationApproval where
  name := name
  operation := operationId
  approvalPolicy := "two-approvers"
  decision := .approved
  approver := approver
  decidedAt := now
  comment := ""
  payloadHashSnapshot := emptyDigest
  targetKeySnapshot := "agent-1/bench-1/site-1"
  previewResultHashSnapshot := none
  decisionHash := emptyDigest

def database : Database where
  agents := [agent]
  benches := [bench]
  sites := [site]
  policies := [policy]
  operations := [operation]
  operationTargets := [operationTarget]
  operationApprovals :=
    [approval "approval-1" "alice@example.com", approval "approval-2" "bob@example.com"]
  operationEvents := []
  bulkOperations := []
  bulkTargets := []
  bulkApprovals := []
  roles := [("alice@example.com", ["Approver"]), ("bob@example.com", ["Approver"])]
  featureConfig := { masterEnabled := true, features := [] }

end Sample

/-- No command is built from too few, repeated, self-made, rejected or stale approvals, and
its claims are the approvals it was built from. -/
theorem envelope_approvals_sound {R : Runtime} {lifetime : ℕ} {db : Database} {name : String}
    {now : DateTime} {env : List (String × Json)} (h : envelope R lifetime db name now = .ok env) :
    ∃ row t, operationRow? db name = some row ∧ target db row.op.name = .ok t ∧
      ApprovalsSound db row.op t (Json.get env "approval_claims") := by
  obtain ⟨row, _, _, _, t, claims, hrow, ht, hclaims, rfl⟩ := envelope_eq_ok h
  refine ⟨row, t, hrow, ht, ?_⟩
  rw [command_approval_claims]
  exact approvalClaims_eq_ok hclaims

/-- The sample operation is dispatchable, so its command carries two sound approvals. -/
theorem envelope_approvals_sound_sample :
    ∃ env row t,
      envelope (Sample.runtime [(['{', '}'], Sample.emptyDigest)] [(['{', '}'], .obj [])]) 300 Sample.database
        Sample.operationId Sample.now = .ok env ∧
      operationRow? Sample.database Sample.operationId = some row ∧
      target Sample.database row.op.name = .ok t ∧
      ApprovalsSound Sample.database row.op t (Json.get env "approval_claims") := by
  obtain ⟨env, henv⟩ := Transaction.exists_eq_ok_of_isOk
    (show (envelope (Sample.runtime [(['{', '}'], Sample.emptyDigest)] [(['{', '}'], .obj [])]) 300
      Sample.database Sample.operationId Sample.now).isOk = true by decide +kernel)
  obtain ⟨row, t, hrow, ht, hsound⟩ := envelope_approvals_sound henv
  exact ⟨env, row, t, henv, hrow, ht, hsound⟩

/-! ## What the lease-time check does not read -/

/-- An operation without the columns that leasing, quarantine and results write. -/
def withoutProgress (op : ControllerOperation) : ControllerOperation :=
  { op with
    state := .queued, issuedAt := none, expiresAt := none, leaseExpiresAt := none
    lastEventSequence := 0, resultJson := none, resultHash := none, credentialReceivedAt := none
    errorCode := none, startedAt := none, completedAt := none }

/-- An operation target without the columns progress writes. -/
def targetWithoutProgress (t : OperationTarget) : OperationTarget :=
  { t with state := .queued, resultJson := none, errorCode := none }

/-- A bulk target without the columns progress writes. -/
def bulkTargetWithoutProgress (t : BulkOperationTarget) : BulkOperationTarget :=
  { t with
    state := .planned, resultJson := none, errorCode := none, startedAt := none
    completedAt := none }

/-- The part of a database the progress of operations leaves fixed. -/
def commandsOf (db : Database) : Database :=
  { db with
    operations := db.operations.map withoutProgress
    operationTargets := db.operationTargets.map targetWithoutProgress
    operationEvents := []
    bulkTargets := db.bulkTargets.map bulkTargetWithoutProgress }

/-- Writes of progress columns only leave the commands alone. -/
theorem commandsOf_advance {f : ControllerOperation → ControllerOperation}
    {g : OperationTarget → OperationTarget} {h : BulkOperationTarget → BulkOperationTarget}
    (hf : ∀ op, withoutProgress (f op) = withoutProgress op)
    (hg : ∀ t, targetWithoutProgress (g t) = targetWithoutProgress t)
    (hh : ∀ t, bulkTargetWithoutProgress (h t) = bulkTargetWithoutProgress t)
    (name : String) (bulkTarget : Option String) (db : Database) :
    commandsOf (db.advance name bulkTarget f g h) = commandsOf db := by
  cases bulkTarget with
  | none =>
    simp only [Database.advance, commandsOf, Database.setOperation, Database.setOperationTarget,
      Table.setValue, Table.map_update _ _ hf, Table.map_update _ _ hg]
  | some bulkTarget =>
    simp only [Database.advance, commandsOf, Database.setOperation, Database.setOperationTarget,
      Database.setBulkTarget, Table.setValue, Table.map_update _ _ hf, Table.map_update _ _ hg,
      Table.map_update _ _ hh]

theorem operationRow?_commandsOf (db : Database) (name : String) :
    operationRow? (commandsOf db) name =
      (operationRow? db name).map fun row => { row with op := withoutProgress row.op } := by
  simp only [operationRow?, commandsOf, Database.operation?]
  rw [Table.get?_map (f := withoutProgress) fun _ => rfl]
  cases Table.get? db.operations name with
  | none => rfl
  | some op =>
    simp only [Option.map_some, Option.bind_eq_bind, Option.bind_some, withoutProgress]
    cases Table.get? db.agents op.serverAgent with
    | none => rfl
    | some agent => cases Table.get? db.benches op.bench <;> rfl

theorem target_commandsOf (db : Database) (name : String) :
    target (commandsOf db) name = (target db name).map targetWithoutProgress := by
  have hfilter : (commandsOf db).operationTargets.filter (fun t => t.operation == name) =
      (db.operationTargets.filter fun t => t.operation == name).map targetWithoutProgress := by
    simp only [commandsOf, List.filter_map, Function.comp_def, targetWithoutProgress]
  simp only [target, hfilter]
  generalize db.operationTargets.filter (fun t => t.operation == name) = rows
  match rows with
  | [] => rfl
  | [_] => rfl
  | _ :: _ :: _ => rfl

theorem bulkParentRow?_commandsOf (db : Database) (op : ControllerOperation) :
    bulkParentRow? (commandsOf db) (withoutProgress op) = bulkParentRow? db op := by
  have htarget : ∀ name, (commandsOf db).bulkTarget? name =
      (db.bulkTarget? name).map bulkTargetWithoutProgress := fun name =>
    Table.get?_map (f := bulkTargetWithoutProgress) (fun _ => rfl) _ _
  simp only [bulkParentRow?, withoutProgress]
  cases op.bulkTarget with
  | none => rfl
  | some name =>
    simp only [Option.bind_some, htarget]
    cases db.bulkTarget? name <;> rfl

theorem approvalClaims_commandsOf (db : Database) (op : ControllerOperation)
    (t : OperationTarget) :
    approvalClaims (commandsOf db) (withoutProgress op) (targetWithoutProgress t) =
      approvalClaims db op t := by
  simp only [approvalClaims]
  congr 1
  simp only [bulkApprovalClaims, bulkParentRow?_commandsOf]
  rfl

/-- The stored command is compared with columns that progress does not write. -/
theorem validateSnapshot_commandsOf (R : Runtime) (db : Database) (name : String)
    (fields : List (String × Json)) :
    validateSnapshot R (commandsOf db) name fields = validateSnapshot R db name fields := by
  simp only [validateSnapshot, operationRow?_commandsOf, target_commandsOf]
  cases operationRow? db name with
  | none => rfl
  | some row =>
    simp only [Option.map_some]
    have hpayload : (withoutProgress row.op).payloadJson = row.op.payloadJson := rfl
    rw [hpayload]
    cases decoded R "operation payload is invalid JSON" (some row.op.payloadJson) with
    | error e => rfl
    | ok read =>
      cases read with
      | inr value => rfl
      | inl payload =>
        -- both sides make the same first check; only then do they read the target
        refine congrArg (ensure _ _ >>= ·) (funext fun _ => ?_)
        cases Json.get fields "approval_claims" with
        | arr claims =>
          cases target db name with
          | error e => rfl
          | ok t =>
            simp only [Except.map, bind, Except.bind, approvalClaims_commandsOf]
            rfl
        | _ => rfl

/-- A document was read where `loads` gives it. -/
theorem decoded_eq_ok_inl {R : Runtime} {message : String} {text : Text} {value : Json} :
    decoded R message (some text) = .ok (.inl value) ↔ R.loads text = some value := by
  simp only [decoded]
  cases R.loads text with
  | some _ => simp
  | none => cases R.unread text <;> simp

/-- A stored command is accepted with the hash of its column. -/
theorem digest_of_persisted {R : Runtime} {commandJson : Option Text} {commandHash : Option String}
    {fields : List (String × Json)} (h : persisted R commandJson commandHash = .ok fields) :
    ∃ digest, commandHash = some digest ∧ isSha256 digest = true ∧
      immutableCommandHash R fields = .ok digest := by
  -- every way of reading the command ends with the check of its digest
  have hdigest : ∀ decoded : List (String × Json), isSha256 (commandHash.getD "") = true →
      (immutableCommandHash R decoded >>= fun digest =>
        ensure (some digest == commandHash) (.dispatchConflict "persisted command hash changed")
          >>= fun _ => .ok decoded) = .ok fields →
      ∃ digest, commandHash = some digest ∧ isSha256 digest = true ∧
        immutableCommandHash R fields = .ok digest := by
    intro decoded hsha hhash
    simp only [bind_eq_ok, ensure_eq_ok, exists_const, beq_iff_eq, Except.ok.injEq] at hhash
    obtain ⟨digest, hdecoded, hcolumn, rfl⟩ := hhash
    rw [← hcolumn] at hsha
    exact ⟨digest, hcolumn.symm, hsha, hdecoded⟩
  unfold persisted at h
  rw [bind_eq_ok] at h
  obtain ⟨read, -, h⟩ := h
  split at h
  · simp only [bind_eq_ok (x := ensure _ _), ensure_eq_ok, exists_const] at h
    exact hdigest _ h.1 h.2
  · rw [bind_eq_ok] at h
    obtain ⟨_, hsha, h⟩ := h
    rw [bind_eq_ok] at h
    obtain ⟨command, -, h⟩ := h
    exact hdigest command (ensure_eq_ok.mp hsha) h
  · cases h

/-- The comparison of a stored command with the live rows succeeds when each of its checks
does. -/
theorem validateSnapshot_eq_ok {R : Runtime} {db : Database} {name : String}
    {fields : List (String × Json)} {u : Unit} :
    validateSnapshot R db name fields = .ok u ↔ ∃ row payload persistedClaims t claims,
      operationRow? db name = some row ∧ R.loads row.op.payloadJson = some payload ∧
      (∀ f ∈ expected row payload, Json.pyEq (Json.get fields f.1) f.2 = true) ∧
      Json.get fields "approval_claims" = .arr persistedClaims ∧ target db name = .ok t ∧
      (t.serverAgent == row.op.serverAgent && t.bench == row.op.bench
        && orNone t.managedSite == orNone row.op.managedSite
        && t.operationTypeSnapshot == row.op.operationType
        && t.payloadHashSnapshot == row.op.payloadHash) = true ∧
      ((orNone t.inventoryRevisionSnapshot).map isSha256).getD true = true ∧
      approvalClaims db row.op t = .ok claims ∧
      Json.pyEq (.arr persistedClaims) (.arr claims) = true := by
  unfold validateSnapshot
  cases operationRow? db name with
  | none => simp
  -- the checks of the source, one conjunct each
  | some row =>
    simp only [bind_eq_ok]
    constructor
    · rintro ⟨read, hread, h⟩
      cases read with
      | inr value => cases h
      | inl payload =>
        simp only [bind_eq_ok, ensure_eq_ok, exists_const, List.all_eq_true] at h
        obtain ⟨hexpected, h⟩ := h
        split at h
        · rename_i persistedClaims hclaims
          simp only [bind_eq_ok, ensure_eq_ok, exists_const] at h
          obtain ⟨t, ht, hsame, hrevision, claims, hlive, heq⟩ := h
          exact ⟨row, payload, persistedClaims, t, claims, rfl, decoded_eq_ok_inl.mp hread,
            hexpected, hclaims, ht, hsame, hrevision, hlive, heq⟩
        · cases h
    · rintro ⟨_, payload, persistedClaims, t, claims, hrow, hloads, hexpected, hclaims, ht, hsame,
        hrevision, hlive, heq⟩
      cases hrow
      refine ⟨.inl payload, decoded_eq_ok_inl.mpr hloads, ?_⟩
      simp only [hclaims, bind_eq_ok, ensure_eq_ok, exists_const, List.all_eq_true]
      exact ⟨hexpected, t, ht, hsame, hrevision, claims, hlive, heq⟩

theorem operationRow?_eq_some {db : Database} {name : String} {row : OperationRow}
    (h : operationRow? db name = some row) : row.op ∈ db.operations ∧ row.op.name = name := by
  simp only [operationRow?, Option.bind_eq_bind, Option.bind_eq_some_iff] at h
  obtain ⟨op, hop, _, -, _, -, hrow⟩ := h
  cases hrow
  exact ⟨Table.get?_mem hop, Table.get?_name hop⟩

/-- Databases that differ in progress only validate the same commands. -/
theorem validatePersisted_congr (R : Runtime) (lifetime : ℕ) {db db' : Database}
    (h : commandsOf db' = commandsOf db) (name : String) (commandJson : Option Text)
    (commandHash : Option String) (now : DateTime) :
    validatePersisted R lifetime db' name commandJson commandHash now =
      validatePersisted R lifetime db name commandJson commandHash now := by
  have hsnapshot : ∀ fields, validateSnapshot R db' name fields = validateSnapshot R db name fields :=
    fun fields => by
      rw [← validateSnapshot_commandsOf R db', h, validateSnapshot_commandsOf]
  simp only [validatePersisted, hsnapshot]

end Dispatcher

end FrappeController
