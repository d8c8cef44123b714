import FrappeController.Approvals
import FrappeController.DispatcherTheorems
import FrappeController.FrappeBulk
import FrappeController.Library.Ballot

/-!
# Counts and statuses under concurrent decisions

The decisions on operations and on bulk operations are votes in two registries
(`operationRegistry`, `bulkRegistry`), and a committed request casts one vote, with the count
its snapshot showed. The recorded counts and statuses are right in every committed state as
long as each approval counted the approvals committed before it and none that decides
overlooks a rejection (`decisions_tallied`). Two requests that begin before either commits
break that (`decisions_lost`). Bulk children are approved with their parent, so that they take no
decision, as operations that need no approval.
-/

namespace FrappeController
namespace Approvals

open Snapshot

/-! ## What a request writes -/

section Writes

variable {R : Runtime} {request : Request} {db : Database} {writes : Database → Database}

theorem check_eq_ok {f : Database → Except Exc Unit} {write : Database → Database}
    (h : check f db = .ok write) : f db = .ok () ∧ write = id := by
  unfold check at h
  cases hf : f db with
  | error e =>
    rw [hf] at h
    cases h
  | ok u =>
    rw [hf] at h
    cases h
    exact ⟨rfl, rfl⟩

/-- The columns a decision writes on an operation, after `seen` approvals. -/
def recordDecision (seen : ℕ) (required : ℤ) (decision : Decision) (op : ControllerOperation) :
    ControllerOperation :=
  match decision with
  | .rejected => { op with approvalStatus := .rejected }
  | .approved => OperationApproval.recordApproval (seen + 1) required op

/-- The columns a decision writes on a bulk operation, after `seen` approvals. -/
def recordBulkDecision (seen : ℕ) (required : ℤ) (now : DateTime) (decision : Decision)
    (parent : BulkOperation) : BulkOperation :=
  match decision with
  | .rejected => { parent with approvalStatus := .rejected, state := .rejected }
  | .approved => BulkOperationApproval.recordApproval (seen + 1) required now parent

theorem OperationApproval.authorize_eq_ok (h : OperationApproval.authorize request db = .ok ()) :
    ∃ op, db.operation? request.parent = some op ∧ op.approvalStatus = .pending := by
  simp only [OperationApproval.authorize, Transaction.bind_eq_ok, ensure_eq_ok] at h
  obtain ⟨_, -, _, -, hmatch⟩ := h
  split at hmatch
  · cases hmatch
  · rename_i op hop
    simp only [Transaction.bind_eq_ok, ensure_eq_ok, beq_iff_eq] at hmatch
    obtain ⟨_, hstatus, -⟩ := hmatch
    exact ⟨op, hop, hstatus⟩

theorem OperationApproval.document_eq_ok {a : FrappeController.OperationApproval}
    (h : OperationApproval.document R request db = .ok a) :
    a.operation = request.parent ∧ a.decision = request.decision := by
  unfold OperationApproval.document at h
  split at h
  · rename_i op _ hop _
    split at h
    · cases h
    · cases h
      exact ⟨Table.get?_name hop, rfl⟩
  · cases h

/-- A decision request on an operation inserts its row and records the decision with the
approvals it saw. -/
theorem OperationApproval.decide_eq_ok
    (h : perform (OperationApproval.decide R request) db = .ok writes) :
    ∃ op a, db.operation? request.parent = some op ∧ op.approvalStatus = .pending ∧
      a.operation = request.parent ∧ a.decision = request.decision ∧
      writes = fun c => (OperationApproval.insert a c).setOperation request.parent
        (recordDecision (OperationApproval.approvedCount db request.parent) op.requiredApprovals
          request.decision) := by
  simp only [OperationApproval.decide, perform_cons_eq_ok] at h
  obtain ⟨_, _, hauthorize, ⟨_, _, hvalidate, ⟨write, _, hinsert, ⟨last, _, hafter, hnil, rfl⟩, rfl⟩,
    rfl⟩, rfl⟩ := h
  obtain ⟨hauthorized, rfl⟩ := check_eq_ok hauthorize
  obtain ⟨-, rfl⟩ := check_eq_ok hvalidate
  obtain ⟨op, hop, hstatus⟩ := OperationApproval.authorize_eq_ok hauthorized
  cases hdocument : OperationApproval.document R request db with
  | error e =>
    simp only [id_eq, hdocument, Except.map] at hinsert
    cases hinsert
  | ok a =>
    simp only [id_eq, hdocument, Except.map] at hinsert
    cases hinsert
    cases hnil
    obtain ⟨hparent, hdecision⟩ := OperationApproval.document_eq_ok hdocument
    refine ⟨op, a, hop, hstatus, hparent, hdecision, funext fun c => ?_⟩
    -- the insertion of a decision leaves the operations as they are
    have hinserted : (OperationApproval.insert a db).operation? request.parent = some op := hop
    unfold OperationApproval.afterInsert at hafter
    cases hkind : request.decision with
    | rejected =>
      rw [hkind] at hafter
      cases hafter
      rfl
    | approved =>
      rw [hkind] at hafter
      -- after the insertion the count has the new decision in it
      have hcount : OperationApproval.approvedCount (OperationApproval.insert a db) request.parent =
          OperationApproval.approvedCount db request.parent + 1 := by
        simp [OperationApproval.approvedCount, OperationApproval.insert, List.filter_append,
          hparent, hdecision, hkind]
      simp only [id_eq, hinserted, hcount, Option.map_some,
        Option.getD_some] at hafter
      cases hafter
      rfl

theorem BulkOperationApproval.document_eq_ok {a : FrappeController.BulkOperationApproval}
    (h : BulkOperationApproval.document R request db = .ok a) :
    ∃ name parent, BulkOperationApproval.parentName R request = .ok name ∧
      db.bulkOperation? name = some parent ∧ a.bulkOperation = name ∧
      a.decision = request.decision := by
  obtain ⟨name, hname, hmatch⟩ := Transaction.bind_eq_ok.mp h
  split at hmatch
  · cases hmatch
  · rename_i parent hparent
    cases hmatch
    exact ⟨name, parent, hname, hparent, Table.get?_name hparent, rfl⟩

theorem BulkOperationApproval.validate_eq_ok {a : FrappeController.BulkOperationApproval}
    (h : BulkOperationApproval.validate a db = .ok ()) :
    ∃ parent, db.bulkOperation? a.bulkOperation = some parent ∧
      parent.approvalStatus = .pending := by
  simp only [BulkOperationApproval.validate, Transaction.bind_eq_ok] at h
  obtain ⟨_, -, _, -, _, -, _, -, _, -, hmatch⟩ := h
  split at hmatch
  · cases hmatch
  · rename_i parent hparent
    simp only [Transaction.bind_eq_ok, ensure_eq_ok, Bool.and_eq_true, beq_iff_eq] at hmatch
    obtain ⟨_, -, _, -, _, hstatus, -⟩ := hmatch
    exact ⟨parent, hparent, hstatus.1⟩

/-- A decision request on a bulk operation inserts its row and records the decision with the
approvals it saw. -/
theorem BulkOperationApproval.decide_eq_ok
    (h : perform (BulkOperationApproval.decide R request) db = .ok writes) :
    ∃ name parent a, BulkOperationApproval.parentName R request = .ok name ∧
      db.bulkOperation? name = some parent ∧ parent.approvalStatus = .pending ∧
      a.bulkOperation = name ∧ a.decision = request.decision ∧
      writes = fun c => (BulkOperationApproval.insert a c).setBulkOperation name
        (recordBulkDecision (BulkOperationApproval.approvedCount db name)
          parent.requiredApprovals request.now request.decision) := by
  simp only [BulkOperationApproval.decide, perform_cons_eq_ok] at h
  obtain ⟨_, _, hauthorize, ⟨_, _, hvalidate, ⟨write, _, hinsert, ⟨last, _, hafter, hnil, rfl⟩, rfl⟩,
    rfl⟩, rfl⟩ := h
  obtain ⟨-, rfl⟩ := check_eq_ok hauthorize
  obtain ⟨hvalidated, rfl⟩ := check_eq_ok hvalidate
  obtain ⟨a, hdocument, hvalid⟩ := Transaction.bind_eq_ok.mp hvalidated
  simp only [id_eq] at hdocument hvalid hinsert hafter
  obtain ⟨name, parent, hname, hparent, hof, hdecision⟩ :=
    BulkOperationApproval.document_eq_ok hdocument
  obtain ⟨parent', hparent', hstatus⟩ := BulkOperationApproval.validate_eq_ok hvalid
  -- both statements read the parent in the same snapshot
  rw [hof, hparent] at hparent'
  cases hparent'
  rw [hdocument] at hinsert
  cases hinsert
  cases hnil
  refine ⟨name, parent, a, hname, hparent, hstatus, hof, hdecision, funext fun c => ?_⟩
  obtain ⟨name', hname', hlast⟩ := Transaction.bind_eq_ok.mp hafter
  rw [hname] at hname'
  cases hname'
  have hinserted : (BulkOperationApproval.insert a db).bulkOperation? name = some parent := hparent
  unfold BulkOperationApproval.afterInsert at hlast
  cases hkind : request.decision with
  | rejected =>
    rw [hkind] at hlast
    cases hlast
    rfl
  | approved =>
    rw [hkind] at hlast
    -- after the insertion the count has the new decision in it
    have hcount : BulkOperationApproval.approvedCount (BulkOperationApproval.insert a db) name =
        BulkOperationApproval.approvedCount db name + 1 := by
      simp [BulkOperationApproval.approvedCount, BulkOperationApproval.insert, List.filter_append,
        hof, hdecision, hkind]
    simp only [hinserted, hcount, Option.map_some, Option.getD_some] at hlast
    cases hlast
    rfl

end Writes

/-! ## The registries -/

/-- A decision as a vote. -/
def vote : Decision → Bool
  | .approved => true
  | .rejected => false

/-- The outcome an approval status records. -/
def outcome : ApprovalStatus → Option Bool
  | .approved => some true
  | .rejected => some false
  | .pending | .notRequired => none

/-- Nobody decides on an operation that needs no approval, nor on a bulk child. -/
def undecidable (op : ControllerOperation) : Bool :=
  op.approvalStatus == .notRequired || op.bulkParent.isSome

theorem undecidable_eq_false {op : ControllerOperation} :
    undecidable op = false ↔ op.approvalStatus ≠ .notRequired ∧ op.bulkParent = none := by
  simp [undecidable]

def operationPoll (op : ControllerOperation) : Poll String where
  key := op.name
  required := op.requiredApprovals
  count := op.approvalCount
  outcome := outcome op.approvalStatus
  exempt := undecidable op

def bulkPoll (parent : BulkOperation) : Poll String where
  key := parent.name
  required := parent.requiredApprovals
  count := parent.approvalCount
  outcome := outcome parent.approvalStatus
  exempt := parent.approvalStatus == .notRequired

/-- The decisions on operations. -/
def operationRegistry (db : Database) : Registry String where
  polls := db.operations.map operationPoll
  votes := db.operationApprovals.map fun a => (a.operation, vote a.decision)

/-- The decisions on bulk operations. -/
def bulkRegistry (db : Database) : Registry String where
  polls := db.bulkOperations.map bulkPoll
  votes := db.bulkApprovals.map fun a => (a.bulkOperation, vote a.decision)

theorem operationPoll_recordDecision {op : ControllerOperation} {seen : ℕ} {decision : Decision}
    (htakes : undecidable op = false) :
    operationPoll (recordDecision seen op.requiredApprovals decision op) =
      (operationPoll op).cast seen (vote decision) := by
  obtain ⟨hstatus, hparent⟩ := undecidable_eq_false.mp htakes
  cases decision with
  | rejected =>
    simp [operationPoll, recordDecision, Poll.cast, vote, outcome, undecidable, hstatus, hparent]
  | approved =>
    by_cases hdecides : op.requiredApprovals ≤ (seen : ℤ) + 1
    · simp [operationPoll, recordDecision, OperationApproval.recordApproval, Poll.cast, vote,
        outcome, undecidable, hdecides, hstatus, hparent]
    · simp [operationPoll, recordDecision, OperationApproval.recordApproval, Poll.cast, vote,
        undecidable, hdecides, hparent]

theorem bulkPoll_recordBulkDecision {parent : BulkOperation} {seen : ℕ} {now : DateTime}
    {decision : Decision} (htakes : parent.approvalStatus ≠ .notRequired) :
    bulkPoll (recordBulkDecision seen parent.requiredApprovals now decision parent) =
      (bulkPoll parent).cast seen (vote decision) := by
  cases decision with
  | rejected => simp [bulkPoll, recordBulkDecision, Poll.cast, vote, outcome, htakes]
  | approved =>
    by_cases hdecides : parent.requiredApprovals ≤ (seen : ℤ) + 1
    · simp [bulkPoll, recordBulkDecision, BulkOperationApproval.recordApproval, Poll.cast, vote,
        outcome, hdecides, htakes]
    · simp [bulkPoll, recordBulkDecision, BulkOperationApproval.recordApproval, Poll.cast, vote,
        hdecides]

section Votes

variable {α : Type} {rows : List α} {key : α → String} {decision : α → Decision}
  {polls : List (Poll String)}

/-- The votes in favour are the approved rows. -/
theorem count_votesFor (parent : String) :
    ((Registry.mk polls (rows.map fun a => (key a, vote (decision a)))).votesFor parent).count true =
      (rows.filter fun a => key a == parent && decision a == .approved).length := by
  have hvote : ∀ a, (vote (decision a) == true) = (decision a == .approved) := fun a => by
    cases decision a <;> rfl
  rw [Registry.votesFor, List.filter_map, List.map_map, List.count, List.countP_map,
    List.countP_filter, List.countP_eq_length_filter]
  refine congrArg List.length (List.filter_congr fun a _ => ?_)
  simp only [Function.comp_apply, hvote]
  exact Bool.and_comm _ _

/-- The votes against are the rejected rows. -/
theorem false_mem_votesFor (parent : String) :
    false ∈ (Registry.mk polls (rows.map fun a => (key a, vote (decision a)))).votesFor parent ↔
      ∃ a ∈ rows, key a = parent ∧ decision a = .rejected := by
  have hvote : ∀ a, vote (decision a) = false ↔ decision a = .rejected := fun a => by
    cases decision a <;> simp [vote]
  simp only [Registry.votesFor, List.mem_map, List.mem_filter, decide_eq_true_eq]
  constructor
  · rintro ⟨-, ⟨⟨a, ha, rfl⟩, hkey⟩, hagainst⟩
    exact ⟨a, ha, hkey, (hvote a).mp hagainst⟩
  · rintro ⟨a, ha, hkey, hrejected⟩
    exact ⟨_, ⟨⟨a, ha, rfl⟩, hkey⟩, (hvote a).mpr hrejected⟩

theorem votesFor_eq_nil {parent : String} :
    (Registry.mk polls (rows.map fun a => (key a, vote (decision a)))).votesFor parent = [] ↔
      ∀ a ∈ rows, key a ≠ parent := by
  simp [Registry.votesFor, List.map_eq_nil_iff, List.filter_eq_nil_iff]

end Votes

/-! ## The system -/

/-- A decision on an operation or on a bulk operation. -/
inductive Ask where
  | operation (request : Request)
  | bulk (request : Request)

/-- The statements of a decision. -/
def program (R : Runtime) : Ask → List (Statement Exc Database)
  | .operation request => OperationApproval.decide R request
  | .bulk request => BulkOperationApproval.decide R request

/-- Two operations agree in the columns of the approval gate. -/
structure SameGate (op op' : ControllerOperation) : Prop where
  name : op'.name = op.name
  requiredApprovals : op'.requiredApprovals = op.requiredApprovals
  approvalCount : op'.approvalCount = op.approvalCount
  approvalStatus : op'.approvalStatus = op.approvalStatus
  bulkParent : op'.bulkParent = op.bulkParent

@[inherit_doc SameGate]
structure SameBulkGate (p p' : BulkOperation) : Prop where
  name : p'.name = p.name
  requiredApprovals : p'.requiredApprovals = p.requiredApprovals
  approvalCount : p'.approvalCount = p.approvalCount
  approvalStatus : p'.approvalStatus = p.approvalStatus

/-- The gate of something newly authored: nobody decided, and it needs no approval or waits for
at least one. -/
def Undecided (status : ApprovalStatus) (required count : ℤ) : Prop :=
  count = 0 ∧ (status = .notRequired ∨ (status = .pending ∧ 0 < required))

/-- A newly authored operation: a bulk child is approved with its parent, whatever the parent's
count, and nobody decided on any other. -/
def Authored (op : ControllerOperation) : Prop :=
  if op.bulkParent.isSome then op.approvalStatus = .approved
  else Undecided op.approvalStatus op.requiredApprovals op.approvalCount

/-- Any other transaction: it writes no decision row and no column of an approval gate, but may
author operations and bulk operations. -/
structure OtherStep (db db' : Database) : Prop where
  names : Table.Unique db'.operations
  bulkNames : Table.Unique db'.bulkOperations
  approvals : db'.operationApprovals = db.operationApprovals
  bulkApprovals : db'.bulkApprovals = db.bulkApprovals
  kept : ∀ op ∈ db.operations, ∃ op' ∈ db'.operations, SameGate op op'
  old : ∀ op' ∈ db'.operations, (∃ op ∈ db.operations, SameGate op op') ∨
    (Authored op' ∧ ∀ a ∈ db'.operationApprovals, a.operation ≠ op'.name)
  keptBulk : ∀ p ∈ db.bulkOperations, ∃ p' ∈ db'.bulkOperations, SameBulkGate p p'
  oldBulk : ∀ p' ∈ db'.bulkOperations, (∃ p ∈ db.bulkOperations, SameBulkGate p p') ∨
    (Undecided p'.approvalStatus p'.requiredApprovals p'.approvalCount ∧
      ∀ a ∈ db'.bulkApprovals, a.bulkOperation ≠ p'.name)

/-- The approvals of `parent` in the snapshot are those committed by now, and if one more
decides, no rejection is committed. -/
def CountsAll (decision : Decision) (seen approved : ℕ) (required : ℤ) (rejected : Prop) : Prop :=
  decision = .approved → seen = approved ∧ (required ≤ approved + 1 → ¬ rejected)

theorem counted_of_countsAll {α : Type} {rows : List α} {key : α → String}
    {decision : α → Decision} {polls : List (Poll String)} {parent : String} {required : ℤ}
    {seen : ℕ} {decided : Decision}
    (h : CountsAll decided seen
      (rows.filter fun a => key a == parent && decision a == .approved).length required
      (∃ a ∈ rows, key a = parent ∧ decision a = .rejected)) :
    Poll.Counted required
      ((Registry.mk polls (rows.map fun a => (key a, vote (decision a)))).votesFor parent) seen
      (vote decided) := by
  intro hfor
  cases decided with
  | rejected => cases hfor
  | approved =>
    obtain ⟨hseen, hunrejected⟩ := h rfl
    rw [count_votesFor]
    refine ⟨hseen, fun hdecides hagainst => ?_⟩
    rw [hseen] at hdecides
    exact hunrejected hdecides ((false_mem_votesFor parent).mp hagainst)

/-- What a decision request must have seen when it commits. -/
def Informed (R : Runtime) : Ask → Database → Database → Prop
  | .operation request, snapshot, db => ∀ op ∈ db.operations, op.name = request.parent →
      CountsAll request.decision (OperationApproval.approvedCount snapshot op.name)
        (OperationApproval.approvedCount db op.name) op.requiredApprovals
        (∃ a ∈ db.operationApprovals, a.operation = op.name ∧ a.decision = .rejected)
  | .bulk request, snapshot, db => ∀ p ∈ db.bulkOperations,
      BulkOperationApproval.parentName R request = .ok p.name →
      CountsAll request.decision (BulkOperationApproval.approvedCount snapshot p.name)
        (BulkOperationApproval.approvedCount db p.name) p.requiredApprovals
        (∃ a ∈ db.bulkApprovals, a.bulkOperation = p.name ∧ a.decision = .rejected)

/-- The status the decision rows determine. -/
def determined (rejected : Prop) [Decidable rejected] (required : ℤ) (approved : ℕ) :
    ApprovalStatus :=
  if rejected then .rejected else if required ≤ approved then .approved else .pending

/-- The counts and statuses of a database are the ones its decision rows determine, and what takes
no decision has no decision rows. -/
structure Tallied (db : Database) : Prop where
  names : Table.Unique db.operations
  bulkNames : Table.Unique db.bulkOperations
  children : ∀ op ∈ db.operations, op.bulkParent.isSome → op.approvalStatus = .approved
  untouched : ∀ op ∈ db.operations, undecidable op = true →
    ∀ a ∈ db.operationApprovals, a.operation ≠ op.name
  bulkUntouched : ∀ p ∈ db.bulkOperations, p.approvalStatus = .notRequired →
    ∀ a ∈ db.bulkApprovals, a.bulkOperation ≠ p.name
  operation : ∀ op ∈ db.operations, undecidable op = false →
    op.approvalCount = OperationApproval.approvedCount db op.name ∧
      op.approvalStatus = determined
        (∃ a ∈ db.operationApprovals, a.operation = op.name ∧ a.decision = .rejected)
        op.requiredApprovals (OperationApproval.approvedCount db op.name)
  bulk : ∀ p ∈ db.bulkOperations, p.approvalStatus ≠ .notRequired →
    p.approvalCount = BulkOperationApproval.approvedCount db p.name ∧
      p.approvalStatus = determined
        (∃ a ∈ db.bulkApprovals, a.bulkOperation = p.name ∧ a.decision = .rejected)
        p.requiredApprovals (BulkOperationApproval.approvedCount db p.name)

/-! ## The registries of a database -/

/-- A poll is tallied exactly when its count and status are the determined ones. -/
theorem poll_tallied_iff {α : Type} {rows : List α} {key : α → String} {decision : α → Decision}
    {polls : List (Poll String)} {parent : String} {required count : ℤ}
    {status : ApprovalStatus} {exempt : Bool} (htakes : status ≠ .notRequired) :
    (Poll.mk parent required count (outcome status) exempt).Tallied
        ((Registry.mk polls (rows.map fun a => (key a, vote (decision a)))).votesFor parent) ↔
      count = (rows.filter fun a => key a == parent && decision a == .approved).length ∧
        status = determined (∃ a ∈ rows, key a = parent ∧ decision a = .rejected) required
          (rows.filter fun a => key a == parent && decision a == .approved).length := by
  simp only [Poll.Tallied, verdict, count_votesFor, false_mem_votesFor, determined]
  refine and_congr_right fun _ => ?_
  split
  · cases status <;> simp_all [outcome]
  · split
    · cases status <;> simp_all [outcome]
    · cases status <;> simp_all [outcome]

/-- Every bulk child is approved. -/
def Children (db : Database) : Prop :=
  ∀ op ∈ db.operations, op.bulkParent.isSome → op.approvalStatus = .approved

theorem tallied_iff {db : Database} :
    Tallied db ↔
      Children db ∧ (operationRegistry db).Tallied ∧ (bulkRegistry db).Tallied := by
  -- the polls of the two registries are the rows of the two tables
  have hkeys : (operationRegistry db).polls.map Poll.key = db.operations.map Named.name := by
    rw [operationRegistry, List.map_map]
    rfl
  have hbulkKeys : (bulkRegistry db).polls.map Poll.key = db.bulkOperations.map Named.name := by
    rw [bulkRegistry, List.map_map]
    rfl
  constructor
  · intro h
    refine ⟨h.children, ⟨hkeys ▸ h.names, fun p hp hexempt => ?_, fun p hp hexempt => ?_⟩,
      ⟨hbulkKeys ▸ h.bulkNames, fun p hp hexempt => ?_, fun p hp hexempt => ?_⟩⟩
    · obtain ⟨op, hop, rfl⟩ := List.mem_map.mp hp
      have htakes : undecidable op = false := hexempt
      exact (poll_tallied_iff (undecidable_eq_false.mp htakes).1).mpr (h.operation op hop htakes)
    · obtain ⟨op, hop, rfl⟩ := List.mem_map.mp hp
      exact votesFor_eq_nil.mpr (h.untouched op hop hexempt)
    · obtain ⟨parent, hparent, rfl⟩ := List.mem_map.mp hp
      have htakes : parent.approvalStatus ≠ .notRequired := by simpa [bulkPoll] using hexempt
      exact (poll_tallied_iff htakes).mpr (h.bulk parent hparent htakes)
    · obtain ⟨parent, hparent, rfl⟩ := List.mem_map.mp hp
      have hnone : parent.approvalStatus = .notRequired := by simpa [bulkPoll] using hexempt
      exact votesFor_eq_nil.mpr (h.bulkUntouched parent hparent hnone)
  · rintro ⟨hchildren, hoperation, hbulk⟩
    exact {
      names := by
        rw [Table.Unique, ← hkeys]
        exact hoperation.keys
      bulkNames := by
        rw [Table.Unique, ← hbulkKeys]
        exact hbulk.keys
      children := hchildren
      untouched := fun op hop hexempt =>
        votesFor_eq_nil.mp (hoperation.untouched _ (List.mem_map_of_mem hop) hexempt)
      bulkUntouched := fun parent hparent hnone =>
        votesFor_eq_nil.mp (hbulk.untouched _ (List.mem_map_of_mem hparent)
          (by simpa [bulkPoll] using hnone))
      operation := fun op hop htakes =>
        (poll_tallied_iff (undecidable_eq_false.mp htakes).1).mp
          (hoperation.tallied _ (List.mem_map_of_mem hop) htakes)
      bulk := fun parent hparent htakes =>
        (poll_tallied_iff htakes).mp (hbulk.tallied _ (List.mem_map_of_mem hparent)
          (by simpa [bulkPoll] using htakes)) }

/-- The gates of `older` are still there in `newer`, and it was a state with approved children. -/
structure Since (older newer : Database) : Prop where
  children : Children older
  operations : Registry.Since (operationRegistry older) (operationRegistry newer)
  bulkOperations : Registry.Since (bulkRegistry older) (bulkRegistry newer)

/-- A decision on an operation casts one vote. -/
theorem operationRegistry_decide {c : Database} {a : FrappeController.OperationApproval}
    {parent : String} {seen : ℕ} {required : ℤ} {decision : Decision}
    (hparent : a.operation = parent) (hdecision : a.decision = decision)
    (hgate : ∀ op ∈ c.operations, op.name = parent →
      undecidable op = false ∧ op.requiredApprovals = required) :
    operationRegistry ((OperationApproval.insert a c).setOperation parent
        (recordDecision seen required decision)) =
      (operationRegistry c).cast parent seen (vote decision) := by
  have hpolls : (Table.setValue parent (recordDecision seen required decision) c.operations).map
      operationPoll = (c.operations.map operationPoll).map fun p =>
        if p.key = parent then p.cast seen (vote decision) else p := by
    rw [Table.setValue, Table.update, List.map_map, List.map_map]
    refine List.map_congr_left fun op hop => ?_
    have hname : (operationPoll op).key = Named.name op := rfl
    simp only [Function.comp_apply, hname]
    by_cases hmine : Named.name op = parent
    · obtain ⟨htakes, hrequired⟩ := hgate op hop hmine
      rw [if_pos hmine, if_pos hmine, ← hrequired, operationPoll_recordDecision htakes]
    · rw [if_neg hmine, if_neg hmine]
  have hvotes : (c.operationApprovals ++ [a]).map (fun a => (a.operation, vote a.decision)) =
      c.operationApprovals.map (fun a => (a.operation, vote a.decision)) ++
        [(parent, vote decision)] := by
    rw [List.map_append, List.map_singleton, hparent, hdecision]
  exact congrArg₂ Registry.mk hpolls hvotes

/-- A decision on a bulk operation casts one vote. -/
theorem bulkRegistry_decide {c : Database} {a : FrappeController.BulkOperationApproval}
    {parent : String} {seen : ℕ} {required : ℤ} {now : DateTime} {decision : Decision}
    (hparent : a.bulkOperation = parent) (hdecision : a.decision = decision)
    (hgate : ∀ p ∈ c.bulkOperations, p.name = parent →
      p.approvalStatus ≠ .notRequired ∧ p.requiredApprovals = required) :
    bulkRegistry ((BulkOperationApproval.insert a c).setBulkOperation parent
        (recordBulkDecision seen required now decision)) =
      (bulkRegistry c).cast parent seen (vote decision) := by
  have hpolls : (Table.setValue parent (recordBulkDecision seen required now decision)
      c.bulkOperations).map bulkPoll = (c.bulkOperations.map bulkPoll).map fun p =>
        if p.key = parent then p.cast seen (vote decision) else p := by
    rw [Table.setValue, Table.update, List.map_map, List.map_map]
    refine List.map_congr_left fun p hp => ?_
    have hname : (bulkPoll p).key = Named.name p := rfl
    simp only [Function.comp_apply, hname]
    by_cases hmine : Named.name p = parent
    · obtain ⟨htakes, hrequired⟩ := hgate p hp hmine
      rw [if_pos hmine, if_pos hmine, ← hrequired, bulkPoll_recordBulkDecision htakes]
    · rw [if_neg hmine, if_neg hmine]
  have hvotes : (c.bulkApprovals ++ [a]).map (fun a => (a.bulkOperation, vote a.decision)) =
      c.bulkApprovals.map (fun a => (a.bulkOperation, vote a.decision)) ++
        [(parent, vote decision)] := by
    rw [List.map_append, List.map_singleton, hparent, hdecision]
  exact congrArg₂ Registry.mk hpolls hvotes

/-- The gate a snapshot saw open is the gate the decision is committed to. -/
theorem gate_of_since {older newer : Registry String} (h : Registry.Since older newer)
    (hkeys : (newer.polls.map Poll.key).Nodup) {p : Poll String} (hp : p ∈ older.polls)
    (hexempt : p.exempt = false) {p' : Poll String} (hp' : p' ∈ newer.polls)
    (hkey : p'.key = p.key) : p'.exempt = false ∧ p'.required = p.required := by
  obtain ⟨q, hq, hqkey, hrequired, hqexempt⟩ := h p hp
  have hsame : p' = q := List.inj_on_of_nodup_map hkeys hp' hq (hkey.trans hqkey.symm)
  subst hsame
  refine ⟨?_, hrequired⟩
  cases hp'exempt : p'.exempt with
  | false => rfl
  | true =>
    rw [hqexempt hp'exempt] at hexempt
    cases hexempt

/-! ## Steps -/

variable {R : Runtime}

/-- A decision on an operation that is no child leaves the children as they are. -/
theorem children_decide {c : Database} (hchildren : Children c) {a : OperationApproval}
    {name : String} {seen : ℕ} {required : ℤ} {decision : Decision}
    (hno : ∀ op ∈ c.operations, op.name = name → op.bulkParent = none) :
    Children ((OperationApproval.insert a c).setOperation name
      (recordDecision seen required decision)) := by
  intro op hop hchild
  obtain ⟨old, hold, rfl⟩ := (Table.mem_update ..).mp hop
  by_cases hname : Named.name old = name
  · rw [if_pos hname] at hchild
    have hkept : (recordDecision seen required decision old).bulkParent = old.bulkParent := by
      cases decision <;> rfl
    rw [hkept, hno old hold hname] at hchild
    cases hchild
  · rw [if_neg hname] at hchild ⊢
    exact hchildren old hold hchild

/-- A decision on an operation that counted what is committed keeps the tally. -/
theorem tallied_operation {request : Request} {snapshot c : Database}
    {writes : Database → Database} (htallied : Tallied c) (hsince : Since snapshot c)
    (hinformed : Informed R (.operation request) snapshot c)
    (h : perform (OperationApproval.decide R request) snapshot = .ok writes) :
    Tallied (writes c) ∧ ∀ older, Since older c → Since older (writes c) := by
  obtain ⟨op, a, hop, hpending, hparent, hdecision, rfl⟩ := OperationApproval.decide_eq_ok h
  obtain ⟨hchildren, hoperation, hbulk⟩ := tallied_iff.mp htallied
  have hopen : undecidable op = false := by
    have hchild : op.bulkParent = none := by
      -- a child of the snapshot is approved, not pending
      by_contra hsome
      have happroved := hsince.children op (Table.get?_mem hop)
        (Option.isSome_iff_ne_none.mpr hsome)
      rw [hpending] at happroved
      cases happroved
    exact undecidable_eq_false.mpr ⟨by rw [hpending]; decide, hchild⟩
  have hgate : ∀ op' ∈ c.operations, op'.name = request.parent →
      undecidable op' = false ∧ op'.requiredApprovals = op.requiredApprovals := by
    intro op' hop' hname
    exact gate_of_since hsince.operations hoperation.keys
      (List.mem_map_of_mem (Table.get?_mem hop)) hopen (List.mem_map_of_mem hop')
      (hname.trans (Table.get?_name hop).symm)
  let seen := OperationApproval.approvedCount snapshot request.parent
  have hcast : operationRegistry ((OperationApproval.insert a c).setOperation request.parent
      (recordDecision seen op.requiredApprovals request.decision)) =
      (operationRegistry c).cast request.parent seen (vote request.decision) :=
    operationRegistry_decide hparent hdecision hgate
  have hcounted : ∀ p ∈ (operationRegistry c).polls, p.key = request.parent →
      p.exempt = false ∧ Poll.Counted p.required ((operationRegistry c).votesFor request.parent)
        seen (vote request.decision) := by
    intro p hp hkey
    obtain ⟨op', hop', rfl⟩ := List.mem_map.mp hp
    have hname : op'.name = request.parent := hkey
    have hseen := hinformed op' hop' hname
    rw [hname] at hseen
    exact ⟨(hgate op' hop' hname).1, counted_of_countsAll hseen⟩
  -- the decision is on no child
  have hnone : ∀ op' ∈ c.operations, op'.name = request.parent → op'.bulkParent = none :=
    fun op' hop' hname => (undecidable_eq_false.mp (hgate op' hop' hname).1).2
  refine ⟨tallied_iff.mpr ⟨children_decide hchildren hnone, ?_, hbulk⟩,
    fun older holder => ⟨holder.children, ?_, holder.bulkOperations⟩⟩
  · rw [hcast]
    exact hoperation.cast hcounted
  · rw [hcast]
    exact holder.operations.trans (Registry.since_cast _ _ _ _)

/-- A decision on a bulk operation that counted what is committed keeps the tally. -/
theorem tallied_bulk {request : Request} {snapshot c : Database} {writes : Database → Database}
    (htallied : Tallied c) (hsince : Since snapshot c)
    (hinformed : Informed R (.bulk request) snapshot c)
    (h : perform (BulkOperationApproval.decide R request) snapshot = .ok writes) :
    Tallied (writes c) ∧ ∀ older, Since older c → Since older (writes c) := by
  obtain ⟨name, parent, a, hrequest, hfound, hpending, hparent, hdecision, rfl⟩ :=
    BulkOperationApproval.decide_eq_ok h
  obtain ⟨hchildren, hoperation, hbulk⟩ := tallied_iff.mp htallied
  have hopen : (bulkPoll parent).exempt = false := by simp [bulkPoll, hpending]
  -- the parent still asks for approvals, as many as the request saw
  have hgate : ∀ p ∈ c.bulkOperations, p.name = name →
      p.approvalStatus ≠ .notRequired ∧ p.requiredApprovals = parent.requiredApprovals := by
    intro p hp hname
    obtain ⟨hexempt, hrequired⟩ := gate_of_since hsince.bulkOperations hbulk.keys
      (List.mem_map_of_mem (Table.get?_mem hfound)) hopen (List.mem_map_of_mem hp)
      (hname.trans (Table.get?_name hfound).symm)
    exact ⟨by simpa [bulkPoll] using hexempt, hrequired⟩
  let seen := BulkOperationApproval.approvedCount snapshot name
  have hcast : bulkRegistry ((BulkOperationApproval.insert a c).setBulkOperation name
      (recordBulkDecision seen parent.requiredApprovals request.now request.decision)) =
      (bulkRegistry c).cast name seen (vote request.decision) :=
    bulkRegistry_decide hparent hdecision hgate
  -- the request counted every decision that is recorded by now
  have hcounted : ∀ p ∈ (bulkRegistry c).polls, p.key = name →
      p.exempt = false ∧ Poll.Counted p.required ((bulkRegistry c).votesFor name) seen
        (vote request.decision) := by
    intro p hp hkey
    obtain ⟨p', hp', rfl⟩ := List.mem_map.mp hp
    have hname : p'.name = name := hkey
    have hseen := hinformed p' hp' (hname ▸ hrequest)
    rw [hname] at hseen
    exact ⟨by simpa [bulkPoll] using (hgate p' hp' hname).1, counted_of_countsAll hseen⟩
  refine ⟨tallied_iff.mpr ⟨hchildren, hoperation, ?_⟩, fun older holder => ⟨holder.children,
    holder.operations, ?_⟩⟩
  · rw [hcast]
    exact hbulk.cast hcounted
  · rw [hcast]
    exact holder.bulkOperations.trans (Registry.since_cast _ _ _ _)

theorem opens_other {db db' : Database} (h : OtherStep db db') :
    (operationRegistry db).Opens (operationRegistry db') ∧
      (bulkRegistry db).Opens (bulkRegistry db') := by
  -- the polls read the columns of the gate only
  have hsame : ∀ {op op' : ControllerOperation}, SameGate op op' →
      operationPoll op' = operationPoll op := fun hgate => by
    simp [operationPoll, undecidable, hgate.name, hgate.requiredApprovals, hgate.approvalCount,
      hgate.approvalStatus, hgate.bulkParent]
  have hbulkSame : ∀ {p p' : BulkOperation}, SameBulkGate p p' → bulkPoll p' = bulkPoll p :=
    fun hgate => by
      simp [bulkPoll, hgate.name, hgate.requiredApprovals, hgate.approvalCount,
        hgate.approvalStatus]
  -- what is new has no decision, so it opens undecided
  have hfresh : ∀ {status required count}, Undecided status required count →
      status ≠ ApprovalStatus.notRequired → count = 0 ∧ outcome status = none ∧ 0 < required := by
    rintro status required count ⟨hcount, rfl | ⟨rfl, hrequired⟩⟩ hstatus
    · exact absurd rfl hstatus
    · exact ⟨hcount, rfl, hrequired⟩
  refine ⟨⟨?_, ?_, fun p hp => ?_, fun p hp => ?_⟩, ⟨?_, ?_, fun p hp => ?_, fun p hp => ?_⟩⟩
  · rw [operationRegistry, operationRegistry, h.approvals]
  · rw [operationRegistry, List.map_map]
    exact h.names
  · obtain ⟨op, hop, rfl⟩ := List.mem_map.mp hp
    obtain ⟨op', hop', hgate⟩ := h.kept op hop
    exact List.mem_map.mpr ⟨op', hop', hsame hgate⟩
  · obtain ⟨op', hop', rfl⟩ := List.mem_map.mp hp
    rcases h.old op' hop' with ⟨op, hop, hgate⟩ | ⟨hauthored, hnone⟩
    · exact .inl (List.mem_map.mpr ⟨op, hop, (hsame hgate).symm⟩)
    · refine .inr ⟨votesFor_eq_nil.mpr hnone, fun hexempt => ?_⟩
      obtain ⟨hstatus, hparent⟩ := undecidable_eq_false.mp hexempt
      rw [Authored, hparent] at hauthored
      exact hfresh hauthored hstatus
  · rw [bulkRegistry, bulkRegistry, h.bulkApprovals]
  · rw [bulkRegistry, List.map_map]
    exact h.bulkNames
  · obtain ⟨parent, hparent, rfl⟩ := List.mem_map.mp hp
    obtain ⟨parent', hparent', hgate⟩ := h.keptBulk parent hparent
    exact List.mem_map.mpr ⟨parent', hparent', hbulkSame hgate⟩
  · obtain ⟨parent', hparent', rfl⟩ := List.mem_map.mp hp
    rcases h.oldBulk parent' hparent' with ⟨parent, hparent, hgate⟩ | ⟨hundecided, hnone⟩
    · exact .inl (List.mem_map.mpr ⟨parent, hparent, (hbulkSame hgate).symm⟩)
    · refine .inr ⟨votesFor_eq_nil.mpr hnone, fun hexempt => hfresh hundecided ?_⟩
      simpa [bulkPoll] using hexempt

/-- Whatever is authored, the bulk children are approved. -/
theorem children_other {db db' : Database} (h : OtherStep db db') (hchildren : Children db) :
    Children db' := by
  intro op' hop' hchild
  rcases h.old op' hop' with ⟨op, hop, hgate⟩ | ⟨hauthored, -⟩
  · rw [hgate.bulkParent] at hchild
    rw [hgate.approvalStatus]
    exact hchildren op hop hchild
  · rw [Authored, if_pos hchild] at hauthored
    exact hauthored

/-! ### Authoring -/

/-- Inserting a newly authored operation under a fresh name. -/
theorem otherStep_author {db : Database} {op : ControllerOperation}
    (hnames : Table.Unique db.operations) (hbulkNames : Table.Unique db.bulkOperations)
    (hnew : db.operation? op.name = none) (hauthored : Authored op)
    (hrows : ∀ a ∈ db.operationApprovals, a.operation ≠ op.name) :
    OtherStep db { db with operations := db.operations ++ [op] } where
  names := by
    have hfresh := Table.get?_eq_none.mp hnew
    show ((db.operations ++ [op]).map Named.name).Nodup
    rw [List.map_append, List.nodup_append]
    refine ⟨hnames, by simp, fun name hname name' hname' => ?_⟩
    obtain ⟨row, hrow, rfl⟩ := List.mem_map.mp hname
    rw [List.mem_singleton.mp hname']
    exact hfresh row hrow
  bulkNames := hbulkNames
  approvals := rfl
  bulkApprovals := rfl
  kept := fun row hrow => ⟨row, List.mem_append_left _ hrow, ⟨rfl, rfl, rfl, rfl, rfl⟩⟩
  old := by
    intro row hrow
    rcases List.mem_append.mp hrow with hrow | hrow
    · exact .inl ⟨row, hrow, ⟨rfl, rfl, rfl, rfl, rfl⟩⟩
    · rw [List.mem_singleton.mp hrow]
      exact .inr ⟨hauthored, hrows⟩
  keptBulk := fun parent hparent => ⟨parent, hparent, ⟨rfl, rfl, rfl, rfl⟩⟩
  oldBulk := fun parent hparent => .inl ⟨parent, hparent, ⟨rfl, rfl, rfl, rfl⟩⟩

/-- `create_child` authors the children as the system allows it. -/
theorem authored_childDocument (E : FrappeBulk.Environment) (parent : BulkOperation)
    (row : BulkOperationTarget) (childId key : String) (db : Database) :
    Authored (FrappeBulk.childDocument E parent row childId key db) := rfl

/-- A cancellation needs no approval. -/
theorem authored_cancelDocument (E : FrappeBulk.Environment) (user : String)
    (row : BulkOperationTarget) (child cancellation : String) :
    Authored (FrappeBulk.cancelDocument R E user row child cancellation) :=
  ⟨rfl, .inl rfl⟩

/-! ### The result -/

/-- In every run of decisions in which each commit is informed, the recorded counts and statuses
are the ones the committed rows determine. -/
theorem decisions_tallied {s t : System Exc Database Ask} {labels : List (Snapshot.Label Ask)}
    (hstart : Tallied s.committed) (hidle : ∀ number, s.active number = none)
    (hrun : Run (fun s l t => Snapshot.Step (program R) OtherStep s l t ∧
      Snapshot.Commits (Informed R) s l) s labels t) :
    Tallied t.committed := by
  have hrefl : ∀ c, Tallied c → Since c c := fun c htallied =>
    ⟨htallied.children, Registry.Since.refl _, Registry.Since.refl _⟩
  have hcommit : ∀ ask snapshot c writes, Tallied c → Since snapshot c →
      Informed R ask snapshot c → perform (program R ask) snapshot = .ok writes →
      Tallied (writes c) ∧ ∀ older, Since older c → Since older (writes c) := by
    intro ask snapshot c writes htallied hsince hinformed hperform
    cases ask with
    | operation request => exact tallied_operation htallied hsince hinformed hperform
    | bulk request => exact tallied_bulk htallied hsince hinformed hperform
  have hother : ∀ c c', Tallied c → OtherStep c c' →
      Tallied c' ∧ ∀ older, Since older c → Since older c' := by
    intro c c' htallied hother
    obtain ⟨hoperation, hbulk⟩ := opens_other hother
    obtain ⟨hchildren, htallied₁, htallied₂⟩ := tallied_iff.mp htallied
    refine ⟨tallied_iff.mpr ⟨children_other hother hchildren, hoperation.tallied htallied₁,
      hbulk.tallied htallied₂⟩, fun older holder => ?_⟩
    exact ⟨holder.children, holder.operations.trans hoperation.since,
      holder.bulkOperations.trans hbulk.since⟩
  exact Snapshot.invariant hrefl hcommit hother hrun hidle hstart

/-! ### Two approvers at once -/

namespace Sample

open Dispatcher.Sample

/-- A runtime that knows the digests of the two decisions below, told apart by their
lengths. -/
def runtime : Runtime :=
  { Dispatcher.Sample.runtime [] [] with
    sha256 := fun text =>
      if text.length = 325 then "5e232042a8c6c19a6d3ac916ec9082b20299584ea59893023f7b9363eaf96bda"
      else "250fb9ce6e0bf10bd85cb8980bc705f91a8ccce494f436420378333b1cf78c32" }

/-- The sample operation waiting for its two approvals. -/
def pending : Database :=
  { database with
    operations := [{ operation with approvalStatus := .pending, approvalCount := 0 }]
    operationApprovals := []
    featureConfig :=
      { masterEnabled := true, features := [("restore_and_reinstall", ["production"])] } }

def approve (actor name : String) : Ask :=
  .operation
    { actor, parent := operationId, decision := .approved, comment := none, now, name }

def alice : Ask := approve "alice@example.com" "approval-1"

def bob : Ask := approve "bob@example.com" "approval-2"

/-- Nobody decides yet. -/
def idle : System Exc Database Ask := System.idle pending

/-- What a decision that began on a database writes. -/
@[irreducible] def written (db : Database) (ask : Ask) : Database → Database :=
  performed (program runtime ask) db

/-- A decision that began on a database and has executed its statements. -/
def decided (db : Database) (ask : Ask) : Transaction Exc Database Ask where
  request := ask
  snapshot := db
  writes := written db ask
  rest := []

/-- A decision that is allowed by what is committed can begin and execute its statements, whoever
else has begun. -/
theorem run_decided {P : Ask → Database → Database → Prop} {s : System Exc Database Ask}
    {n : ℕ} {ask : Ask} (hfree : s.active n = none)
    (hok : (perform (program runtime ask) s.committed).isOk = true) :
    Run (fun s l t => Snapshot.Step (program runtime) OtherStep s l t ∧ Commits P s l) s
      (.begin n ask :: List.replicate (program runtime ask).length (.execute n))
      (s.setActive n (some (decided s.committed ask))) := by
  have hperform : perform (program runtime ask) s.committed
      = .ok (written s.committed ask) := by
    rw [written]
    exact perform_eq_performed hok
  exact run_request hfree hperform

theorem alice_allowed : (perform (program runtime alice) pending).isOk = true := by
  decide +kernel

theorem bob_allowed : (perform (program runtime bob) pending).isOk = true := by
  decide +kernel

/-- What is committed after both, if both began at the start. -/
def lost : Database := written pending bob (written pending alice pending)

theorem lost_operation : (∀ op ∈ lost.operations, undecidable op = false ∧
    op.approvalCount = 1 ∧ OperationApproval.approvedCount lost op.name = 2) ∧
    lost.operations.isEmpty = false := by
  decide +kernel

theorem not_tallied_lost : ¬ Tallied lost := by
  intro htallied
  obtain ⟨hrows, hnonempty⟩ := lost_operation
  obtain ⟨op, hop⟩ := List.isEmpty_eq_false_iff_exists_mem.mp hnonempty
  obtain ⟨hdecided, hone, htwo⟩ := hrows op hop
  obtain ⟨hcount, -⟩ := htallied.operation op hop hdecided
  rw [hone, htwo] at hcount
  exact absurd hcount (by decide)

/-! One after the other, with a bulk child authored in between. -/

/-- What is committed after alice. -/
def first : Database := written pending alice pending

/-- A bulk child, approved with its parent. -/
def child : ControllerOperation :=
  { operation with
    name := "child-1", operationId := "child-1", bulkParent := some "bulk-1"
    bulkTarget := some "bulk-target-1", approvalStatus := .approved, approvalCount := 1 }

theorem authored_child : Authored child := rfl

def authored : Database := { first with operations := first.operations ++ [child] }

/-- What is committed after bob. -/
def second : Database := written authored bob authored

/-- A decision that runs alone is informed where nobody has rejected. -/
theorem informed_alone {db : Database} {request : Request}
    (h : (db.operationApprovals.all fun a => a.decision == .approved) = true) :
    Informed runtime (.operation request) db db := by
  intro op _ _ _
  refine ⟨rfl, fun _ hrejected => ?_⟩
  obtain ⟨a, ha, _, hdecision⟩ := hrejected
  have happroved := List.all_eq_true.mp h a ha
  rw [hdecision] at happroved
  cases happroved

/-- A whole decision, from begin to commit, that runs alone. -/
theorem run_alone {db : Database} {actor name : String}
    (hok : (perform (program runtime (approve actor name)) db).isOk = true)
    (h : (db.operationApprovals.all fun a => a.decision == .approved) = true) :
    Run (fun s l t => Snapshot.Step (program runtime) OtherStep s l t ∧
        Commits (Informed runtime) s l) (System.idle db)
      (.begin 0 (approve actor name) ::
        List.replicate (program runtime (approve actor name)).length (.execute 0) ++ [.commit 0])
      (System.idle (written db (approve actor name) db)) := by
  let ask := approve actor name
  let begun := (System.idle db).setActive 0 (some (decided db ask))
  have hbegun := run_decided (P := Informed runtime) (s := System.idle db) (n := 0) rfl hok
  have hcommits : Commits (Informed runtime) begun (.commit 0) := by
    intro number hlabel t ht
    cases hlabel
    rw [System.setActive_active] at ht
    cases ht
    exact informed_alone h
  have hcommit : Snapshot.Step (program runtime) OtherStep begun (.commit 0)
      ({ begun with committed := written db ask db }.setActive 0 none) :=
    .commit (System.setActive_active _ _ _) rfl
  have hidle : ({ begun with committed := written db ask db }.setActive 0 none)
      = System.idle (written db ask db) := by
    simp [begun, System.setActive, System.idle]
  rw [hidle] at hcommit
  exact hbegun.snoc ⟨hcommit, hcommits⟩

/-- What is committed after alice and after the child. -/
theorem rows_first : Table.Unique first.operations ∧ Table.Unique first.bulkOperations ∧
    first.operation? child.name = none ∧
    (∀ a ∈ first.operationApprovals, a.operation ≠ child.name) ∧
    (authored.operationApprovals.all fun a => a.decision == .approved) = true := by
  decide +kernel

theorem rows_second : (perform (program runtime bob) authored).isOk = true ∧
    second.operations.map (fun op => (op.approvalCount, op.approvalStatus))
      = [(2, .approved), (1, .approved)] := by
  decide +kernel

end Sample

/-- Two approvers decide one after the other, and a bulk child is authored in between: the
operation is approved with a count of two, the child keeps its parent's count. -/
theorem decisions_tallied_sample :
    Tallied Sample.second ∧
      Sample.second.operations.map (fun op => (op.approvalCount, op.approvalStatus))
        = [(2, .approved), (1, .approved)] := by
  have hstart : Tallied Sample.pending :=
    { names := by decide, bulkNames := by decide, children := by decide, untouched := by decide
      bulkUntouched := by decide, operation := by decide, bulk := by decide }
  have halice : Run (fun s l t => Snapshot.Step (program Sample.runtime) OtherStep s l t ∧
      Commits (Informed Sample.runtime) s l) (System.idle Sample.pending) _
      (System.idle Sample.first) :=
    Sample.run_alone Sample.alice_allowed rfl
  obtain ⟨hnames, hbulkNames, hnew, hrows, happroved⟩ := Sample.rows_first
  obtain ⟨hallowed, hcounts⟩ := Sample.rows_second
  have hchild : OtherStep Sample.first Sample.authored :=
    otherStep_author hnames hbulkNames hnew Sample.authored_child hrows
  have hother : Snapshot.Step (program Sample.runtime) OtherStep (System.idle Sample.first) .other
      (System.idle Sample.authored) := .other hchild
  have hbob : Run (fun s l t => Snapshot.Step (program Sample.runtime) OtherStep s l t ∧
      Commits (Informed Sample.runtime) s l) (System.idle Sample.authored) _
      (System.idle Sample.second) :=
    Sample.run_alone hallowed happroved
  have hrun := (halice.snoc ⟨hother, fun _ h => by cases h⟩).append hbob
  exact ⟨decisions_tallied hstart (fun _ => rfl) hrun, hcounts⟩

/-- Two approvers begin before either commits. Both rows are committed, but each request counted
its own only: the operation that needs two approvals stays pending with a count of one. -/
theorem decisions_lost : ∃ labels t,
    Run (Snapshot.Step (program Sample.runtime) OtherStep) Sample.idle labels t ∧
    (∀ number, t.active number = none) ∧ ¬ Tallied t.committed := by
  -- both approvers count before either commits
  let both := (Sample.idle.setActive 0 (some (Sample.decided Sample.pending Sample.alice))).setActive
    1 (some (Sample.decided Sample.pending Sample.bob))
  let first : System Exc Database Ask := { both with
    committed := Sample.written Sample.pending Sample.alice Sample.pending }.setActive 0 none
  let last : System Exc Database Ask := { first with committed := Sample.lost }.setActive 1 none
  have halice := Sample.run_decided (P := fun _ _ _ => True) (s := Sample.idle) (n := 0) rfl
    Sample.alice_allowed
  have hbob := Sample.run_decided (P := fun _ _ _ => True) (s := Sample.idle.setActive 0
    (some (Sample.decided Sample.pending Sample.alice))) (n := 1) rfl Sample.bob_allowed
  have hboth : Run (Snapshot.Step (program Sample.runtime) OtherStep) Sample.idle _ both :=
    (halice.append hbob).mono fun _ _ _ h => h.1
  have hfirst : Snapshot.Step (program Sample.runtime) OtherStep both (.commit 0) first :=
    .commit (t := Sample.decided Sample.pending Sample.alice) rfl rfl
  have hlast : Snapshot.Step (program Sample.runtime) OtherStep first (.commit 1) last :=
    .commit (t := Sample.decided Sample.pending Sample.bob) rfl rfl
  have hidle : ∀ number, last.active number = none := by
    intro number
    by_cases hbob : number = 1
    · simp [last, System.setActive, hbob]
    · by_cases halice : number = 0
      · simp [last, first, System.setActive, halice]
      · simp [last, first, both, System.setActive, Sample.idle, System.idle, hbob, halice]
  exact ⟨_, last, (hboth.snoc hfirst).snoc hlast, hidle, Sample.not_tallied_lost⟩

end Approvals

end FrappeController
