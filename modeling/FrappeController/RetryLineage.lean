import FrappeController.DispatcherTheorems
import FrappeController.Library.Lineage
import FrappeController.Library.Run
import FrappeController.OperationAuthoringTheorems

/-!
# Retries of operations

Retry requests, each over its own snapshot, interleaved with any transactions that keep the
identity columns of the operations. The lock on the operation orders the requests for it, and the
search for a successor reads the committed rows, so that a second request finds what the first
one inserted (`retryOperation_cases`, `inv_step`).
-/

namespace FrappeController
namespace OperationRequests

open FrappeInventory (Session read readForUpdate write read_eq_ok readForUpdate_eq_ok write_eq_ok)
open Transaction (bind_eq_ok bind_apply_eq_ok query_eq_ok)
open OperationDocuments OperationAuthoring CustomerSites

/-! ## The system -/

/-- Two rows agree in the columns `immutable_fields` keeps. -/
structure SameIdentity (op op' : ControllerOperation) : Prop where
  name : op'.name = op.name
  operationType : op'.operationType = op.operationType
  serverAgent : op'.serverAgent = op.serverAgent
  bench : op'.bench = op.bench
  managedSite : op'.managedSite = op.managedSite
  payloadHash : op'.payloadHash = op.payloadHash
  bulkParent : op'.bulkParent = op.bulkParent
  bulkTarget : op'.bulkTarget = op.bulkTarget
  retryOf : op'.retryOf = op.retryOf

/-- The operation is no bulk child. -/
def single (op : ControllerOperation) : Bool := !truthy op.bulkParent && !truthy op.bulkTarget

/-- Any other transaction. Of the operations it inserts, only bulk children are retries, of bulk
children that were there before: every other retry lineage is service-owned. -/
structure OtherStep (db db' : Database) : Prop where
  unique : Table.Unique db'.operations
  kept : ∀ op ∈ db.operations, ∃ op' ∈ db'.operations, SameIdentity op op'
  old : ∀ op' ∈ db'.operations, (∃ op ∈ db.operations, SameIdentity op op') ∨
    ((∀ op ∈ db.operations, op.name ≠ op'.name) ∧ ∀ source, op'.retryOf = some source →
      ∃ op ∈ db.operations, op.name = source ∧ single op = false)

inductive Label where
  | retry (request : RetryRequest) (view : Database) (answer : Except Exc Requested)
  | other

/-- A request as its transaction ends: the answer, and the version it leaves behind. -/
def serve {α : Type} (m : EStateM Exc Session α) (view db : Database) : Except Exc α × Database :=
  match m ⟨view, db⟩ with
  | .ok a session => (.ok a, session.current)
  | .error e _ => (.error e, db)

section

variable (R : Runtime) (services : Services)

/-- One commit. A request saw any version that was committed before it ended. -/
inductive Step : List Database → Label → List Database → Prop
  | retry {db : Database} {older : List Database} {request : RetryRequest} {view : Database}
      (hview : view ∈ db :: older) :
      Step (db :: older)
        (.retry request view (serve (retryOperation R services request) view db).1)
        ((serve (retryOperation R services request) view db).2 :: db :: older)
  | other {db db' : Database} {older : List Database} (h : OtherStep db db') :
      Step (db :: older) .other (db' :: db :: older)

/-! ## What a retry does -/

section Retry

variable {R services} {s s' : Session}

/-- No successor is found where every retry is a child of a bulk operation. -/
theorem successor?_eq_none {db : Database} {original : String} :
    successor? db original = none ↔
      ∀ op ∈ db.operations, op.retryOf = some original → truthy op.bulkParent = true := by
  rw [successor?, List.head?_eq_none_iff, ← List.length_eq_zero_iff, List.length_insertionSort,
    List.length_eq_zero_iff, List.filter_eq_nil_iff]
  constructor
  · intro h op hop hretry
    simpa [hretry] using h op hop
  · intro h op hop
    by_cases hretry : op.retryOf = some original
    · simp [hretry, h op hop hretry]
    · simp [hretry]

/-- A successor that is found is a retry of the original and no bulk child. -/
theorem successor?_eq_some {db : Database} {original : String} {op : ControllerOperation}
    (h : successor? db original = some op) :
    op ∈ db.operations ∧ op.retryOf = some original ∧ truthy op.bulkParent = false := by
  have hmem := (List.mem_insertionSort _).mp (List.mem_of_head? h)
  obtain ⟨hop, hcond⟩ := List.mem_filter.mp hmem
  simp only [Bool.and_eq_true, beq_iff_eq, Bool.not_eq_true'] at hcond
  exact ⟨hop, hcond.1, hcond.2⟩

/-- The writes on Customers leave the operations alone. -/
theorem setSiteOperations_eq_ok {now : DateTime} {operationId : String} {documents : List Customer}
    {u : Unit} (h : Transaction.forEach (fun document => setSiteOperation now document operationId)
      documents s = .ok u s') :
    s'.view.operations = s.view.operations ∧ s'.current.operations = s.current.operations := by
  induction documents generalizing s with
  | nil =>
    cases h
    exact ⟨rfl, rfl⟩
  | cons document rest ih =>
    obtain ⟨⟨⟩, s₁, hfirst, hrest⟩ := bind_apply_eq_ok.mp h
    obtain ⟨row, -, -, rfl⟩ := saveCustomer_eq_ok hfirst
    obtain ⟨hview, hcurrent⟩ := ih hrest
    exact ⟨hview, hcurrent⟩

/-- The documents of a requester are only read. -/
theorem requesterDocuments_eq_ok {mayWrite : Bool} {names : List String}
    {documents : List Customer} (h : requesterDocuments mayWrite names s = .ok documents s') :
    s = s' := by
  induction names generalizing documents s with
  | nil =>
    cases h
    rfl
  | cons name rest ih =>
    obtain ⟨document, s₁, hdoc, h₁⟩ := bind_apply_eq_ok.mp h
    obtain ⟨-, rfl⟩ := getDoc_eq_ok hdoc
    obtain ⟨⟨⟩, s₂, hwrite, h₂⟩ := bind_apply_eq_ok.mp h₁
    obtain ⟨-, rfl⟩ := query_eq_ok.mp hwrite
    obtain ⟨⟨⟩, s₃, hsite, h₃⟩ := bind_apply_eq_ok.mp h₂
    obtain ⟨-, rfl⟩ := query_eq_ok.mp hsite
    obtain ⟨documents', s₄, hrest, h₄⟩ := bind_apply_eq_ok.mp h₃
    cases h₄
    exact ih hrest

/-- An operation that was just appended is queued in place. -/
theorem operations_queued {db : Database} {ops : List ControllerOperation}
    {new : ControllerOperation} {text : Text} {digest : String}
    (hops : db.operations = ops ++ [new]) (hnew : ∀ op ∈ ops, op.name ≠ new.name) :
    (queued new.name text digest db).operations = ops ++ [Dispatcher.queue text digest new] := by
  show Table.setValue new.name (Dispatcher.queue text digest) db.operations = _
  have hkept : Table.setValue new.name (Dispatcher.queue text digest) ops = ops :=
    Table.update_of_none _ _ hnew
  have hlast : Table.setValue new.name (Dispatcher.queue text digest) [new] =
      [Dispatcher.queue text digest new] := by
    rw [Table.setValue, Table.update_cons, if_pos (show Named.name new = new.name from rfl),
      Table.update_nil]
  rw [hops, Table.setValue, Table.update_append]
  exact congrArg₂ (· ++ ·) hkept hlast

/-- The columns a successor takes from the operation it retries. -/
structure Succeeds (original successor : ControllerOperation) : Prop where
  retryOf : successor.retryOf = some original.name
  single : single successor = true
  operationType : successor.operationType = original.operationType
  serverAgent : successor.serverAgent = original.serverAgent
  bench : successor.bench = original.bench
  managedSite : successor.managedSite = original.managedSite
  payloadHash : original.name ≠ "" → successor.payloadHash = original.payloadHash

/-- What the authoring of a successor does: it appends the successor, or finds an operation under
its UUID that is one already. -/
inductive Authored (original : ControllerOperation) (view : Database) (answer : Requested)
    (db db' : Database) : Prop
  | appended {successor : ControllerOperation} (hsucceeds : Succeeds original successor)
      (hname : answer.operationId = successor.name)
      (hnew : ∀ op ∈ db.operations, op.name ≠ successor.name)
      (hdb : db'.operations = db.operations ++ [successor]) :
      Authored original view answer db db'
  | found {op : ControllerOperation} (hop : op ∈ view.operations)
      (hretry : op.retryOf = some original.name) : Authored original view answer db db'

/-- The document of a retry has the columns of the operation it retries. -/
theorem succeeds_of_validate {request : RetryRequest} {original : ControllerOperation}
    {payload : List (String × Json)} {result : AuthoredOperation} {now : DateTime}
    {service : Bool} {db : Database} (horiginal : db.operation? original.name = some original)
    (hauthored : Authors R {
      operationId := request.uuid4, operationType := original.operationType
      serverAgent := original.serverAgent, bench := original.bench
      managedSite := original.managedSite, payload, retryOf := some original.name }
      request.actor result)
    (hvalid : validate R none service (operationDocument result now) db = .ok ()) :
    Succeeds original (operationDocument result now) where
  retryOf := hauthored.retryOf
  single := rfl
  operationType := hauthored.operationType
  serverAgent := hauthored.serverAgent
  bench := hauthored.bench
  managedSite := hauthored.managedSite
  payloadHash := by
    intro hname
    have hretry : orNone (operationDocument result now).retryOf = some original.name :=
      orNone_eq_some.mpr ⟨hauthored.retryOf, hname⟩
    obtain ⟨source, hsource, -, hcolumns⟩ := validate_retry ⟨rfl, rfl⟩ hretry hvalid
    rw [horiginal] at hsource
    cases hsource
    have hhash : orNone (some (operationDocument result now).payloadHash)
        = orNone (some original.payloadHash) := congrArg (·.2.2.2.2) hcolumns
    exact eq_of_orNone_some hhash

/-- A successor stays one when it is queued. -/
theorem Succeeds.queue {original successor : ControllerOperation}
    (h : Succeeds original successor) {text : Text} {digest : String} :
    Succeeds original (Dispatcher.queue text digest successor) :=
  ⟨h.retryOf, h.single, h.operationType, h.serverAgent, h.bench, h.managedSite, h.payloadHash⟩

/-- Whatever the last part of a retry does, the appended operation stays where it is. -/
theorem authored_of_enqueue {lifetime : ℕ} {original new : ControllerOperation}
    {result : AuthoredOperation} {now : DateTime} {answer : Requested} {db : Database}
    (hsucceeds : Succeeds original new) (hname : new.name = result.operationId)
    (hops : s.current.operations = db.operations ++ [new])
    (hnew : ∀ op ∈ db.operations, op.name ≠ new.name)
    (h : enqueueIfApproved R lifetime result now s = .ok answer s') {view : Database} :
    Authored original view answer db s'.current := by
  obtain ⟨hanswer, ⟨-, rfl⟩ | ⟨-, env, henqueue⟩⟩ := enqueueIfApproved_eq_ok h
  · exact .appended hsucceeds (hanswer.trans hname.symm) hnew hops
  · obtain ⟨-, op, digest, -, -, ⟨-, -, rfl⟩ | ⟨text, -, -, rfl⟩⟩ :=
      enqueueApprovedOperation_eq_ok henqueue
    · exact .appended hsucceeds (hanswer.trans hname.symm) hnew hops
    · rw [← hname]
      exact .appended hsucceeds.queue (hanswer.trans hname.symm) hnew (operations_queued hops hnew)

/-- What is answered is a successor that is there already under the same id, or a new one. -/
theorem authorSuccessor_eq_ok {request : RetryRequest} {customers : List String}
    {original : ControllerOperation} {answer : Requested}
    (horiginal : s.view.operation? original.name = some original)
    (h : authorSuccessor R services request customers original s = .ok answer s') :
    Authored original s.view answer s.current s'.current := by
  obtain ⟨payload, s₁, hread, h₁⟩ := bind_apply_eq_ok.mp h
  obtain ⟨-, rfl⟩ := read_eq_ok.mp hread
  obtain ⟨documents, s₂, hdocuments, h₂⟩ := bind_apply_eq_ok.mp h₁
  cases requesterDocuments_eq_ok hdocuments
  obtain ⟨result, s₃, hauthor, h₃⟩ := bind_apply_eq_ok.mp h₂
  obtain ⟨hauthored, hcreate⟩ := author_eq_ok hauthor
  have hauthors := authored_eq_ok hauthored
  obtain ⟨⟨⟩, s₄, hcustomers, henqueue⟩ := bind_apply_eq_ok.mp h₃
  obtain ⟨-, hcurrent⟩ := setSiteOperations_eq_ok hcustomers
  rcases create_eq_ok hcreate with
    ⟨op, hop, hidentical, rfl⟩ | ⟨-, hvalid, hfree, target, rfl⟩
  · -- the UUID is taken, by an operation with the columns of a successor
    obtain ⟨⟨⟩, hsame, -⟩ := bind_eq_ok.mp hidentical
    have hretry : op.retryOf = result.retryOf := by
      have hsame := ensure_eq_ok.mp hsame
      simp only [sameOperation, Bool.and_eq_true, beq_iff_eq] at hsame
      exact hsame.2
    exact .found (Table.get?_mem hop) (hretry.trans hauthors.retryOf)
  · have hsucceeds := succeeds_of_validate horiginal hauthors hvalid
    exact authored_of_enqueue hsucceeds rfl hcurrent
      (fun op hop => ne_name_of_freeColumns hfree hop) henqueue

/-- A request that is allowed to retry the operation it reads. -/
structure Permitted (request : RetryRequest) (view : Database) (original : ControllerOperation) :
    Prop where
  author : requireAuthor view request.actor = .ok ()
  found : view.operation? request.operationId = some original
  mayRead : request.mayRead = true
  requester : (original.requestedBy == request.actor
    || (getRoles view request.actor).contains "Controller Admin") = true
  source : validateRetrySource refused original request.recoveryConfirmed = .ok ()

/-- A permitted retry is of a single operation that did not succeed. -/
theorem Permitted.state {request : RetryRequest} {view : Database}
    {original : ControllerOperation} (h : Permitted request view original) :
    retryState original.state = true ∧ single original = true := by
  obtain ⟨⟨⟩, hstate, hrest⟩ := bind_eq_ok.mp h.source
  obtain ⟨⟨⟩, hbulk, -⟩ := bind_eq_ok.mp hrest
  exact ⟨ensure_eq_ok.mp hstate, ensure_eq_ok.mp hbulk⟩

/-- A retry that returns was permitted by its snapshot. It found a successor among the committed
rows, or authored one. -/
theorem retryOperation_cases {request : RetryRequest} {answer : Requested}
    (h : retryOperation R services request s = .ok answer s') :
    ∃ original, Permitted request s.view original ∧
      ((∃ successor, successor? s.current original.name = some successor ∧
          answer = ⟨successor.name, successor.state⟩ ∧ s' = s) ∨
        (successor? s.current original.name = none ∧
          Authored original s.view answer s.current s'.current)) := by
  obtain ⟨⟨⟩, s₁, hread, h₁⟩ := bind_apply_eq_ok.mp h
  obtain ⟨hauthor, rfl⟩ := read_eq_ok.mp hread
  obtain ⟨original, s₂, hdoc, h₂⟩ := bind_apply_eq_ok.mp h₁
  obtain ⟨hfound, rfl⟩ := getDoc_eq_ok hdoc
  obtain ⟨⟨⟩, s₃, hquery, h₃⟩ := bind_apply_eq_ok.mp h₂
  obtain ⟨hmay, rfl⟩ := query_eq_ok.mp hquery
  obtain ⟨⟨⟩, s₄, hread', h₄⟩ := bind_apply_eq_ok.mp h₃
  obtain ⟨hrequester, rfl⟩ := read_eq_ok.mp hread'
  obtain ⟨customers, s₅, hlocked, h₅⟩ := bind_apply_eq_ok.mp h₄
  obtain ⟨-, rfl⟩ := readForUpdate_eq_ok.mp hlocked
  have h₆ := asValidation_eq_ok.mp h₅
  obtain ⟨⟨⟩, s₆, hquery', h₇⟩ := bind_apply_eq_ok.mp h₆
  obtain ⟨hsource, rfl⟩ := query_eq_ok.mp hquery'
  obtain ⟨successor, s₇, hlocked', h₈⟩ := bind_apply_eq_ok.mp h₇
  obtain ⟨hsuccessor, rfl⟩ := readForUpdate_eq_ok.mp hlocked'
  refine ⟨original, ⟨hauthor, hfound, ensure_eq_ok.mp hmay, ensure_eq_ok.mp hrequester, hsource⟩,
    ?_⟩
  have hsuccessor : successor? s.current original.name = successor := Except.ok.inj hsuccessor
  cases successor with
  | some existing =>
    cases h₈
    exact .inl ⟨existing, hsuccessor, rfl, rfl⟩
  | none =>
    have hname : s.view.operation? original.name = some original := by
      rw [show original.name = request.operationId from Table.get?_name hfound]
      exact hfound
    exact .inr ⟨hsuccessor, authorSuccessor_eq_ok hname h₈⟩

/-- A permitted request for an operation that has a successor returns it and writes nothing. -/
theorem retryOperation_again {request : RetryRequest} {view db : Database}
    {original successor : ControllerOperation} (hpermitted : Permitted request view original)
    (hsuccessor : successor? db original.name = some successor) :
    retryOperation R services request ⟨view, db⟩ =
      .ok ⟨successor.name, successor.state⟩ ⟨view, db⟩ := by
  refine bind_apply_eq_ok.mpr ⟨(), _, read_eq_ok.mpr ⟨hpermitted.author, rfl⟩, ?_⟩
  have hdoc : getDoc "Controller Operation" (·.operation? request.operationId)
      (⟨view, db⟩ : Session) = .ok original ⟨view, db⟩ := getDoc_of_some hpermitted.found
  refine bind_apply_eq_ok.mpr ⟨original, _, hdoc, ?_⟩
  refine bind_apply_eq_ok.mpr ⟨(), _, query_eq_ok.mpr ⟨?_, rfl⟩, ?_⟩
  · exact ensure_eq_ok.mpr hpermitted.mayRead
  refine bind_apply_eq_ok.mpr ⟨(), _, read_eq_ok.mpr ⟨?_, rfl⟩, ?_⟩
  · exact ensure_eq_ok.mpr hpermitted.requester
  refine bind_apply_eq_ok.mpr ⟨_, _, readForUpdate_eq_ok.mpr ⟨rfl, rfl⟩, ?_⟩
  refine asValidation_eq_ok.mpr ?_
  refine bind_apply_eq_ok.mpr ⟨(), _, query_eq_ok.mpr ⟨hpermitted.source, rfl⟩, ?_⟩
  refine bind_apply_eq_ok.mpr ⟨some successor, _, readForUpdate_eq_ok.mpr ⟨?_, rfl⟩, rfl⟩
  rw [hsuccessor]

end Retry

/-! ## The invariant -/

section Invariant

variable {R services} {db db' : Database} {older : List Database}

/-- An operation has its own identity. -/
theorem SameIdentity.refl (op : ControllerOperation) : SameIdentity op op :=
  ⟨rfl, rfl, rfl, rfl, rfl, rfl, rfl, rfl, rfl⟩

/-- The identity stays over two steps. -/
theorem SameIdentity.trans {a b c : ControllerOperation} (h : SameIdentity a b)
    (h' : SameIdentity b c) : SameIdentity a c where
  name := h'.name.trans h.name
  operationType := h'.operationType.trans h.operationType
  serverAgent := h'.serverAgent.trans h.serverAgent
  bench := h'.bench.trans h.bench
  managedSite := h'.managedSite.trans h.managedSite
  payloadHash := h'.payloadHash.trans h.payloadHash
  bulkParent := h'.bulkParent.trans h.bulkParent
  bulkTarget := h'.bulkTarget.trans h.bulkTarget
  retryOf := h'.retryOf.trans h.retryOf

/-- Whether an operation is single is part of its identity. -/
theorem SameIdentity.single_eq {a b : ControllerOperation} (h : SameIdentity a b) :
    single b = single a := by
  simp only [single, h.bulkParent, h.bulkTarget]

/-- Succession is between identities. -/
theorem Succeeds.congr {original original' successor successor' : ControllerOperation}
    (h : Succeeds original successor) (horiginal : SameIdentity original original')
    (hsuccessor : SameIdentity successor successor') : Succeeds original' successor' where
  retryOf := by rw [hsuccessor.retryOf, h.retryOf, horiginal.name]
  single := hsuccessor.single_eq.trans h.single
  operationType := by rw [hsuccessor.operationType, h.operationType, horiginal.operationType]
  serverAgent := by rw [hsuccessor.serverAgent, h.serverAgent, horiginal.serverAgent]
  bench := by rw [hsuccessor.bench, h.bench, horiginal.bench]
  managedSite := by rw [hsuccessor.managedSite, h.managedSite, horiginal.managedSite]
  payloadHash hname := by
    rw [hsuccessor.payloadHash, horiginal.payloadHash]
    exact h.payloadHash (horiginal.name ▸ hname)

/-- In this version the operation has ended unsuccessfully and has no successor. -/
def Unsuccessful (version : Database) (name : String) : Prop :=
  (∃ op ∈ version.operations, op.name = name ∧ retryState op.state = true) ∧
    ∀ op ∈ version.operations, op.retryOf ≠ some name

/-- The operation `a` retries the operation `b`. -/
def link (db : Database) (a b : String) : Prop :=
  ∃ op ∈ db.operations, op.name = a ∧ op.retryOf = some b

/-- There is an operation of this name. -/
def known (db : Database) (name : String) : Prop := ∃ op ∈ db.operations, op.name = name

/-- What every commit keeps of the retry lineages. -/
structure Inv (db : Database) (older : List Database) : Prop where
  unique : Table.Unique db.operations
  kept : ∀ version ∈ older, ∀ op ∈ version.operations, ∃ op' ∈ db.operations, SameIdentity op op'
  source : ∀ op ∈ db.operations, ∀ name, op.retryOf = some name →
    ∃ original ∈ db.operations, original.name = name ∧
      (single original = true → Succeeds original op ∧
        ∃ version ∈ db :: older, Unsuccessful version name)
  once : ∀ original ∈ db.operations, single original = true →
    ∀ a ∈ db.operations, ∀ b ∈ db.operations,
      a.retryOf = some original.name → b.retryOf = some original.name → a = b
  acyclic : Lineage.Acyclic (link db)

/-- Every link leads to a known operation. -/
theorem Inv.within (hinv : Inv db older) : Lineage.Within (known db) (link db) := by
  rintro a b ⟨op, hop, rfl, hretry⟩
  obtain ⟨original, horiginal, hname, -⟩ := hinv.source op hop b hretry
  exact ⟨⟨op, hop, rfl⟩, ⟨original, horiginal, hname⟩⟩

/-- Every version's operations are still there. -/
theorem Inv.still (hinv : Inv db older) {version : Database} (hversion : version ∈ db :: older)
    {op : ControllerOperation} (hop : op ∈ version.operations) :
    ∃ op' ∈ db.operations, SameIdentity op op' := by
  rcases List.mem_cons.mp hversion with rfl | holder
  · exact ⟨op, hop, .refl op⟩
  · exact hinv.kept version holder op hop

/-- A row of a successor, with the row of the operation it retries. -/
theorem Inv.succeeds (hinv : Inv db older) {original op : ControllerOperation}
    (horiginal : original ∈ db.operations) (hsingle : single original = true)
    (hop : op ∈ db.operations) (hretry : op.retryOf = some original.name) :
    Succeeds original op ∧ ∃ version ∈ db :: older, Unsuccessful version original.name := by
  obtain ⟨source, hsource, hname, h⟩ := hinv.source op hop _ hretry
  have hrow : source = original := Table.eq_of_mem hinv.unique hsource horiginal hname
  subst hrow
  exact h hsingle

/-- Where the search for a successor finds none, there is none in any version. -/
theorem Inv.no_successor (hinv : Inv db older) {original : ControllerOperation}
    (horiginal : original ∈ db.operations) (hsingle : single original = true)
    (hnone : successor? db original.name = none) {version : Database}
    (hversion : version ∈ db :: older) :
    ∀ op ∈ version.operations, op.retryOf ≠ some original.name := by
  intro op hop hretry
  obtain ⟨op', hop', hsame⟩ := hinv.still hversion hop
  have hretry' : op'.retryOf = some original.name := hsame.retryOf.trans hretry
  have hbulk := successor?_eq_none.mp hnone op' hop' hretry'
  have hsucceeds := (hinv.succeeds horiginal hsingle hop' hretry').1.single
  simp [single, hbulk] at hsucceeds

/-! ### Other transactions -/

/-- A save that passes `immutable_fields` keeps the identity columns. -/
theorem sameIdentity_of_validate {service : Bool} {previous op : ControllerOperation} {u : Unit}
    (hname : previous.name = op.name)
    (h : validate R (some previous) service op db = .ok u) : SameIdentity previous op := by
  obtain ⟨⟨⟩, -, h⟩ := bind_eq_ok.mp h
  obtain ⟨⟨⟩, -, h⟩ := bind_eq_ok.mp h
  obtain ⟨⟨⟩, -, h⟩ := bind_eq_ok.mp h
  obtain ⟨⟨⟩, -, h⟩ := bind_eq_ok.mp h
  obtain ⟨⟨⟩, -, h⟩ := bind_eq_ok.mp h
  obtain ⟨⟨⟩, -, hprevious⟩ := bind_eq_ok.mp h
  simp only [validatePrevious, bind_eq_ok, immutableField_eq_ok, exists_const] at hprevious
  obtain ⟨-, -, -, hagent, hbench, hsite, htype, -, hhash, -, -, -, -, -, hparent, htarget,
    hretry, -⟩ := hprevious
  exact ⟨hname.symm, htype.symm, hagent.symm, hbench.symm, hsite.symm, hhash.symm, hparent.symm,
    htarget.symm, hretry.symm⟩

/-- A transaction may leave the operations as they are. -/
theorem OtherStep.refl (hunique : Table.Unique db.operations) : OtherStep db db where
  unique := hunique
  kept := fun op hop => ⟨op, hop, .refl op⟩
  old := fun op hop => .inl ⟨op, hop, .refl op⟩

/-- A write on one row that keeps its identity, or no write. -/
theorem OtherStep.set (hunique : Table.Unique db.operations) {name : String}
    {f : ControllerOperation → ControllerOperation}
    (hf : ∀ op ∈ db.operations, op.name = name → SameIdentity op (f op))
    (hdb : db'.operations = Table.setValue name f db.operations) : OtherStep db db' := by
  have hrow : ∀ op ∈ db.operations, SameIdentity op (if op.name = name then f op else op) := by
    intro op hop
    by_cases hname : op.name = name
    · rw [if_pos hname]
      exact hf op hop hname
    · rw [if_neg hname]
      exact .refl op
  have hnames : db'.operations.map Named.name = db.operations.map Named.name := by
    rw [hdb, Table.setValue, Table.update, List.map_map]
    exact List.map_congr_left fun op hop => (hrow op hop).name
  refine ⟨?_, fun op hop => ?_, fun op' hop' => .inl ?_⟩
  · show (db'.operations.map Named.name).Nodup
    rw [hnames]
    exact hunique
  · rw [hdb]
    exact ⟨_, (Table.mem_update _ _).mpr ⟨op, hop, rfl⟩, hrow op hop⟩
  · rw [hdb] at hop'
    obtain ⟨op, hop, rfl⟩ := (Table.mem_update _ _).mp hop'
    exact ⟨op, hop, hrow op hop⟩

/-- An operation that is no retry is appended. -/
theorem OtherStep.append (hunique : Table.Unique db.operations) (new : ControllerOperation)
    (hretry : new.retryOf = none) (hnew : ∀ op ∈ db.operations, op.name ≠ new.name)
    (hdb : db'.operations = db.operations ++ [new]) : OtherStep db db' := by
  refine ⟨?_, fun op hop => ?_, fun op' hop' => ?_⟩
  · show (db'.operations.map Named.name).Nodup
    rw [hdb, List.map_append]
    refine List.nodup_append.mpr ⟨hunique, List.nodup_singleton _, ?_⟩
    intro a ha b hb
    obtain ⟨op, hop, rfl⟩ := List.mem_map.mp ha
    rw [List.mem_singleton.mp hb]
    exact hnew op hop
  · rw [hdb]
    exact ⟨op, List.mem_append_left _ hop, .refl op⟩
  · rw [hdb] at hop'
    rcases List.mem_append.mp hop' with hold | hlast
    · exact .inl ⟨op', hold, .refl op'⟩
    · rw [List.mem_singleton.mp hlast]
      exact .inr ⟨hnew, fun source hsource => by rw [hretry] at hsource; cases hsource⟩

/-- What the last part of a request does to the operations. -/
theorem operations_of_enqueue {lifetime : ℕ} {result : AuthoredOperation} {now : DateTime}
    {answer : Requested} {s s' : Session}
    (h : enqueueIfApproved R lifetime result now s = .ok answer s') :
    s'.current.operations = s.current.operations ∨ ∃ text digest, s'.current.operations =
      Table.setValue result.operationId (Dispatcher.queue text digest) s.current.operations := by
  obtain ⟨-, ⟨-, rfl⟩ | ⟨-, env, henqueue⟩⟩ := enqueueIfApproved_eq_ok h
  · exact .inl rfl
  · obtain ⟨-, op, digest, -, -, ⟨-, -, rfl⟩ | ⟨text, -, -, rfl⟩⟩ :=
      enqueueApprovedOperation_eq_ok henqueue
    · exact .inl rfl
    · exact .inr ⟨text, digest, rfl⟩

/-- A dispatch inserts no operation and links none. -/
theorem OtherStep.enqueue (hunique : Table.Unique db.operations) {lifetime : ℕ}
    {result : AuthoredOperation} {now : DateTime} {answer : Requested} {s s' : Session}
    (hops : s.current.operations = db.operations)
    (h : enqueueIfApproved R lifetime result now s = .ok answer s') : OtherStep db s'.current := by
  rcases operations_of_enqueue h with hsame | ⟨text, digest, hset⟩
  · have hid : s'.current.operations = Table.setValue "" id db.operations := by
      rw [hsame, hops, Table.setValue, Table.update]
      simp
    exact .set hunique (fun op _ _ => .refl op) hid
  · rw [hops] at hset
    exact .set (f := Dispatcher.queue text digest) hunique
      (fun op _ _ => ⟨rfl, rfl, rfl, rfl, rfl, rfl, rfl, rfl, rfl⟩) hset

/-- A request that authors an operation which is no retry, and then touches no operation before
the last part. -/
theorem OtherStep.author {request : OperationRequest} {actor : String} {insertion : Insertion}
    {result : AuthoredOperation} {lifetime : ℕ} {now : DateTime} {answer : Requested}
    {s s₁ s₂ s' : Session} (hunique : Table.Unique s.current.operations)
    (hretry : request.retryOf = none)
    (hauthor : author R services.validatePayload request actor insertion s = .ok result s₁)
    (hops : s₂.current.operations = s₁.current.operations)
    (henqueue : enqueueIfApproved R lifetime result now s₂ = .ok answer s') :
    OtherStep s.current s'.current := by
  obtain ⟨hauthored, hcreate⟩ := author_eq_ok hauthor
  have hnone : result.retryOf = none := (authored_eq_ok hauthored).retryOf.trans hretry
  rcases create_eq_ok hcreate with ⟨op, -, -, rfl⟩ | ⟨-, -, hfree, target, rfl⟩
  · exact .enqueue hunique hops henqueue
  · have hnew : ∀ op ∈ s.current.operations, op.name ≠ result.operationId :=
      fun op hop => ne_name_of_freeColumns hfree hop
    -- the appended operation stays in its place when it is queued
    rcases operations_of_enqueue henqueue with hsame | ⟨text, digest, hset⟩
    · exact .append hunique _ hnone hnew (hsame.trans hops)
    · have hqueued : (queued result.operationId text digest s₂.current).operations = _ :=
        operations_queued hops hnew
      exact .append hunique (Dispatcher.queue text digest (operationDocument result insertion.now))
        hnone hnew (hset.trans hqueued)

/-- The request for the site of a Customer repeats the answer of an earlier one, or authors an
operation that is no retry. -/
theorem OtherStep.createProductionSite {request : SiteRequest} {answer : Requested}
    {s s' : Session} (hunique : Table.Unique s.current.operations)
    (h : createProductionSite R services request s = .ok answer s') :
    OtherStep s.current s'.current := by
  obtain ⟨⟨⟩, s₁, hread, h₁⟩ := bind_apply_eq_ok.mp h
  obtain ⟨-, rfl⟩ := read_eq_ok.mp hread
  obtain ⟨document, s₂, hlock, h₂⟩ := bind_apply_eq_ok.mp h₁
  obtain ⟨⟨⟩, s₃, hlocked, hdocument⟩ := bind_apply_eq_ok.mp hlock
  obtain ⟨-, rfl⟩ := readForUpdate_eq_ok.mp hlocked
  obtain ⟨-, rfl⟩ := getDoc_eq_ok hdocument
  obtain ⟨⟨⟩, s₄, hmay, h₃⟩ := bind_apply_eq_ok.mp h₂
  obtain ⟨-, rfl⟩ := query_eq_ok.mp hmay
  obtain ⟨⟨⟩, s₅, hsite, h₄⟩ := bind_apply_eq_ok.mp h₃
  obtain ⟨-, rfl⟩ := query_eq_ok.mp hsite
  have h₅ := asValidation_eq_ok.mp h₄
  obtain ⟨authorization, s₆, hpayload, h₆⟩ := bind_apply_eq_ok.mp h₅
  obtain ⟨-, rfl⟩ := query_eq_ok.mp hpayload
  cases hrecorded : orNone document.siteCreationOperation with
  | some name =>
    -- the operation on record is the answer, and nothing is written
    rw [hrecorded] at h₆
    obtain ⟨existing, s₇, hfound, hanswer⟩ := bind_apply_eq_ok.mp h₆
    obtain ⟨-, rfl⟩ := getDoc_eq_ok hfound
    obtain ⟨-, rfl⟩ := query_eq_ok.mp hanswer
    exact .refl hunique
  | none =>
    rw [hrecorded] at h₆
    obtain ⟨⟨⟩, s₇, hcheck, h₇⟩ := bind_apply_eq_ok.mp h₆
    obtain ⟨-, rfl⟩ := read_eq_ok.mp hcheck
    obtain ⟨result, s₈, hauthor, h₈⟩ := bind_apply_eq_ok.mp h₇
    obtain ⟨⟨⟩, s₉, hcustomer, henqueue⟩ := bind_apply_eq_ok.mp h₈
    obtain ⟨row, -, -, hsaved⟩ := saveCustomer_eq_ok hcustomer
    have hops : s₉.current.operations = s₈.current.operations := by
      rw [hsaved]
      rfl
    exact .author hunique rfl hauthor hops henqueue

/-- The save of an operation's form keeps its identity. -/
theorem OtherStep.saveOperation {service : Bool} {op : ControllerOperation} {u : Unit}
    {s s' : Session} (hunique : Table.Unique s.current.operations)
    (h : saveOperation R service op s = .ok u s') : OtherStep s.current s'.current := by
  obtain ⟨previous, s₁, hlocked, h₁⟩ := bind_apply_eq_ok.mp h
  obtain ⟨hprevious, rfl⟩ := readForUpdate_eq_ok.mp hlocked
  obtain ⟨⟨⟩, s₂, hread, h₂⟩ := bind_apply_eq_ok.mp h₁
  obtain ⟨hvalid, rfl⟩ := read_eq_ok.mp hread
  have hwrite := write_eq_ok.mp h₂
  have hrow : s.current.operation? op.name = some previous := by
    cases hfound : s.current.operation? op.name with
    | none =>
      rw [hfound] at hprevious
      cases hprevious
    | some found =>
      rw [hfound] at hprevious
      cases hprevious
      rfl
  rw [hwrite]
  refine .set hunique (f := fun _ => op) (fun row hmem hname => ?_) rfl
  have hsame : row = previous := by
    have hget := Table.get?_of_mem hunique hmem
    rw [show Named.name row = op.name from hname] at hget
    exact Option.some.inj (hget.symm.trans hrow)
  rw [hsame]
  exact sameIdentity_of_validate (Table.get?_name hrow) hvalid

/-- A successor after another transaction was one before it. -/
theorem OtherStep.successor (hinv : Inv db older) (h : OtherStep db db')
    {original op : ControllerOperation} (horiginal : original ∈ db'.operations)
    (hsingle : single original = true) (hop : op ∈ db'.operations)
    (hretry : op.retryOf = some original.name) :
    ∃ original₀ ∈ db.operations, ∃ op₀ ∈ db.operations,
      SameIdentity original₀ original ∧ SameIdentity op₀ op := by
  have hsource : ∃ source ∈ db.operations, source.name = original.name ∧
      ((∃ op₀ ∈ db.operations, SameIdentity op₀ op) ∨ single source = false) := by
    rcases h.old op hop with ⟨op₀, hop₀, hsame⟩ | ⟨-, hbulk⟩
    · obtain ⟨source, hsource, hname, -⟩ :=
        hinv.source op₀ hop₀ original.name (hsame.retryOf ▸ hretry)
      exact ⟨source, hsource, hname, .inl ⟨op₀, hop₀, hsame⟩⟩
    · obtain ⟨source, hsource, hname, hfalse⟩ := hbulk original.name hretry
      exact ⟨source, hsource, hname, .inr hfalse⟩
  obtain ⟨source, hsource, hname, hcases⟩ := hsource
  obtain ⟨source', hsource', hsame⟩ := h.kept source hsource
  have hrow : source' = original :=
    Table.eq_of_mem h.unique hsource' horiginal (hsame.name.trans hname)
  subst hrow
  rcases hcases with ⟨op₀, hop₀, hsameOp⟩ | hfalse
  · exact ⟨source, hsource, op₀, hop₀, hsame, hsameOp⟩
  · rw [hsame.single_eq, hfalse] at hsingle
    cases hsingle

/-- Any other transaction keeps the lineage. -/
theorem Inv.other (hinv : Inv db older) (h : OtherStep db db') : Inv db' (db :: older) where
  unique := h.unique
  kept := by
    intro version hversion op hop
    obtain ⟨op₁, hop₁, hsame₁⟩ := hinv.still hversion hop
    obtain ⟨op₂, hop₂, hsame₂⟩ := h.kept op₁ hop₁
    exact ⟨op₂, hop₂, hsame₁.trans hsame₂⟩
  source := by
    intro op hop name hretry
    -- a retry was there before, or is a child of a bulk operation
    rcases h.old op hop with ⟨op₀, hop₀, hsame⟩ | ⟨-, hbulk⟩
    · obtain ⟨original, horiginal, hname, hcase⟩ := hinv.source op₀ hop₀ name (hsame.retryOf ▸ hretry)
      obtain ⟨original', horiginal', hsame'⟩ := h.kept original horiginal
      refine ⟨original', horiginal', hsame'.name.trans hname, fun hsingle => ?_⟩
      obtain ⟨hsucceeds, version, hversion, hunsuccessful⟩ :=
        hcase (hsame'.single_eq ▸ hsingle)
      exact ⟨hsucceeds.congr hsame' hsame, version, List.mem_cons_of_mem _ hversion,
        hunsuccessful⟩
    · obtain ⟨source, hsource, hname, hfalse⟩ := hbulk name hretry
      obtain ⟨source', hsource', hsame'⟩ := h.kept source hsource
      refine ⟨source', hsource', hsame'.name.trans hname, fun hsingle => ?_⟩
      rw [hsame'.single_eq, hfalse] at hsingle
      cases hsingle
  once := by
    intro original horiginal hsingle a ha b hb hretryA hretryB
    -- two retries of one original were there before, so they are the same
    obtain ⟨original₀, horiginal₀, a₀, ha₀, hsame, hsameA⟩ :=
      h.successor hinv horiginal hsingle ha hretryA
    obtain ⟨-, -, b₀, hb₀, -, hsameB⟩ := h.successor hinv horiginal hsingle hb hretryB
    have hold : a₀ = b₀ := hinv.once original₀ horiginal₀ (hsame.single_eq ▸ hsingle) a₀ ha₀ b₀ hb₀
      (by rw [← hsameA.retryOf, hretryA, hsame.name]) (by rw [← hsameB.retryOf, hretryB, hsame.name])
    refine Table.eq_of_mem h.unique ha hb ?_
    show a.name = b.name
    rw [hsameA.name, hsameB.name, hold]
  acyclic := by
    refine hinv.acyclic.grow hinv.within fun a b hlink => ?_
    obtain ⟨op, hop, rfl, hretry⟩ := hlink
    rcases h.old op hop with ⟨op₀, hop₀, hsame⟩ | ⟨hnew, hbulk⟩
    · exact .inl ⟨op₀, hop₀, hsame.name.symm, hsame.retryOf ▸ hretry⟩
    · obtain ⟨source, hsource, hname, -⟩ := hbulk b hretry
      exact .inr ⟨fun ⟨old, hold, hname⟩ => hnew old hold hname, ⟨source, hsource, hname⟩⟩

/-! ### Retries -/

/-- The insertion of a successor of the operation, of which there was none. -/
structure Inserted (db db' : Database) (original successor : ControllerOperation) : Prop where
  mem_original : original ∈ db.operations
  isSingle : single original = true
  succeeds : Succeeds original successor
  none : ∀ op ∈ db.operations, op.retryOf ≠ some original.name
  new : ∀ op ∈ db.operations, op.name ≠ successor.name
  rows : db'.operations = db.operations ++ [successor]

/-- The successor is the only new operation. -/
theorem Inserted.mem {original successor : ControllerOperation}
    (h : Inserted db db' original successor) {op : ControllerOperation} :
    op ∈ db'.operations ↔ op ∈ db.operations ∨ op = successor := by
  rw [h.rows, List.mem_append, List.mem_singleton]

/-- Nobody retries an operation that was just inserted. -/
theorem Inserted.not_retried (hinv : Inv db older) {original successor op : ControllerOperation}
    (h : Inserted db db' original successor) (hop : op ∈ db'.operations) :
    op.retryOf ≠ some successor.name := by
  intro hretry
  rcases h.mem.mp hop with hold | rfl
  · obtain ⟨source, hsource, hname, -⟩ := hinv.source op hold _ hretry
    exact h.new source hsource hname
  · rw [h.succeeds.retryOf] at hretry
    exact h.new original h.mem_original (Option.some.inj hretry)

/-- The insertion of a successor keeps the lineage: its original had none in the version that was
committed. -/
theorem Inv.inserted (hinv : Inv db older) {original successor : ControllerOperation}
    (h : Inserted db db' original successor)
    (hversion : ∃ version ∈ db :: older, Unsuccessful version original.name) :
    Inv db' (db :: older) where
  unique := by
    show (db'.operations.map Named.name).Nodup
    rw [h.rows, List.map_append, List.nodup_append]
    -- the successor has a new name
    refine ⟨hinv.unique, List.nodup_singleton _, ?_⟩
    rintro name hname _ hlast rfl
    obtain ⟨op, hop, rfl⟩ := List.mem_map.mp hname
    exact h.new op hop (List.mem_singleton.mp hlast)
  kept := by
    intro version hmem op hop
    obtain ⟨op', hop', hsame⟩ := hinv.still hmem hop
    exact ⟨op', h.mem.mpr (.inl hop'), hsame⟩
  source := by
    intro op hop name hretry
    rcases h.mem.mp hop with hold | rfl
    · obtain ⟨source, hsource, hname, hcase⟩ := hinv.source op hold name hretry
      refine ⟨source, h.mem.mpr (.inl hsource), hname, fun hsingle => ?_⟩
      obtain ⟨hsucceeds, version, hmem, hunsuccessful⟩ := hcase hsingle
      exact ⟨hsucceeds, version, List.mem_cons_of_mem _ hmem, hunsuccessful⟩
    · rw [h.succeeds.retryOf] at hretry
      obtain ⟨version, hmem, hunsuccessful⟩ := hversion
      cases hretry
      exact ⟨original, h.mem.mpr (.inl h.mem_original), rfl, fun _ =>
        ⟨h.succeeds, version, List.mem_cons_of_mem _ hmem, hunsuccessful⟩⟩
  once := by
    intro source hsource hsingle a ha b hb hretryA hretryB
    rcases h.mem.mp hsource with hold | rfl
    -- two retries of one original: both old, or one is the successor and there was none before
    · rcases h.mem.mp ha with ha' | rfl <;> rcases h.mem.mp hb with hb' | rfl
      · exact hinv.once source hold hsingle a ha' b hb' hretryA hretryB
      · rw [h.succeeds.retryOf] at hretryB
        exact absurd (hretryA.trans hretryB.symm) (h.none a ha')
      · rw [h.succeeds.retryOf] at hretryA
        exact absurd (hretryB.trans hretryA.symm) (h.none b hb')
      · rfl
    · exact absurd hretryA (h.not_retried hinv ha)
  acyclic := by
    -- the new link starts at a new operation, so it closes no cycle
    refine hinv.acyclic.grow hinv.within fun a b hlink => ?_
    obtain ⟨op, hop, rfl, hretry⟩ := hlink
    rcases h.mem.mp hop with hold | rfl
    · exact .inl ⟨op, hold, rfl, hretry⟩
    · rw [h.succeeds.retryOf] at hretry
      exact .inr ⟨fun ⟨old, hold, hname⟩ => h.new old hold hname,
        ⟨original, h.mem_original, Option.some.inj hretry⟩⟩

/-- A retry request inserts one successor, or leaves the operations alone: the successor it names
is in the table afterwards. -/
theorem Inv.retried (hinv : Inv db older) {request : RetryRequest} {view : Database}
    (hview : view ∈ db :: older) {answer : Requested} {s' : Session}
    (h : retryOperation R services request ⟨view, db⟩ = .ok answer s') :
    (∃ successor ∈ s'.current.operations, successor.name = answer.operationId ∧
      successor.retryOf = some request.operationId) ∧
    (s'.current = db ∨ ∃ original successor, Inserted db s'.current original successor ∧
      Unsuccessful view original.name) := by
  obtain ⟨original, hpermitted, hcases⟩ := retryOperation_cases h
  have hname : original.name = request.operationId := Table.get?_name hpermitted.found
  rcases hcases with ⟨successor, hsuccessor, rfl, rfl⟩ | ⟨hnone, hauthored⟩
  · obtain ⟨hmem, hretry, -⟩ := successor?_eq_some hsuccessor
    exact ⟨⟨successor, hmem, rfl, hretry.trans (congrArg some hname)⟩, .inl rfl⟩
  · -- the row of the operation the request read is still there
    obtain ⟨hstate, hsingle⟩ := hpermitted.state
    have horiginal : original ∈ view.operations := Table.get?_mem hpermitted.found
    obtain ⟨row, hrow, hsame⟩ := hinv.still hview horiginal
    have hsingleRow : single row = true := hsame.single_eq.trans hsingle
    have hnoneRow : successor? db row.name = none := hsame.name ▸ hnone
    have hfree {version : Database} (hversion : version ∈ db :: older) :=
      hinv.no_successor hrow hsingleRow hnoneRow hversion
    cases hauthored with
    | found hop hretry => exact absurd (hsame.name ▸ hretry) (hfree hview _ hop)
    | @appended successor hsucceeds hanswer hnew hdb =>
      have hinserted : Inserted db s'.current row successor :=
        { mem_original := hrow
          isSingle := hsingleRow
          succeeds := hsucceeds.congr hsame (.refl successor)
          none := hfree (List.mem_cons_self ..)
          new := hnew
          rows := hdb }
      refine ⟨⟨successor, hinserted.mem.mpr (.inr rfl), hanswer.symm, ?_⟩,
        .inr ⟨row, successor, hinserted, ⟨original, horiginal, hsame.name.symm, hstate⟩,
          hfree hview⟩⟩
      exact hsucceeds.retryOf.trans (congrArg some hname)

/-- The two ways a request's transaction ends. -/
theorem serve_cases {α : Type} (m : EStateM Exc Session α) (view db : Database) :
    (∃ e, serve m view db = (.error e, db)) ∨
      ∃ a s', m ⟨view, db⟩ = .ok a s' ∧ serve m view db = (.ok a, s'.current) := by
  unfold serve
  split
  · rename_i a s' h
    exact .inr ⟨a, s', h, rfl⟩
  · rename_i e s' h
    exact .inl ⟨e, rfl⟩

end Invariant

/-! ## Runs -/

variable {R services}

/-- What a committed retry found: its successor is in the table for good. -/
def Answered (db : Database) (labels : List Label) : Prop :=
  ∀ request view answer, Label.retry request view (.ok answer) ∈ labels →
    ∃ successor ∈ db.operations, successor.name = answer.operationId ∧
      successor.retryOf = some request.operationId

/-- What was answered stays true after one more commit. -/
theorem Answered.snoc {db db' : Database} {labels : List Label} {label : Label}
    (h : Answered db labels)
    (hkept : ∀ op ∈ db.operations, ∃ op' ∈ db'.operations, SameIdentity op op')
    (hlast : ∀ request view answer, label = .retry request view (.ok answer) →
      ∃ successor ∈ db'.operations, successor.name = answer.operationId ∧
        successor.retryOf = some request.operationId) : Answered db' (labels ++ [label]) := by
  intro request view answer hmem
  rcases List.mem_append.mp hmem with hold | hnew
  · obtain ⟨successor, hsuccessor, hname, hretry⟩ := h request view answer hold
    obtain ⟨successor', hsuccessor', hsame⟩ := hkept successor hsuccessor
    exact ⟨successor', hsuccessor', hsame.name.trans hname, hsame.retryOf.trans hretry⟩
  · exact hlast request view answer (List.mem_singleton.mp hnew).symm

/-- One commit keeps the invariant, and the answers given so far stay true. -/
theorem inv_step {db db' : Database} {older : List Database} {history : List Database}
    {label : Label} {labels : List Label} (hinv : Inv db older) (hanswered : Answered db labels)
    (hstep : Step R services (db :: older) label history) (hhistory : history = db' :: db :: older) :
    Inv db' (db :: older) ∧ Answered db' (labels ++ [label]) := by
  have hsame : Inv db (db :: older) := hinv.other (.refl hinv.unique)
  cases hstep with
  | retry hview =>
    rename_i request view
    rcases serve_cases (retryOperation R services request) view db with
      ⟨e, hserve⟩ | ⟨answer, s', hrun, hserve⟩
    · rw [hserve] at hhistory ⊢
      cases hhistory
      refine ⟨hsame, hanswered.snoc (fun op hop => ⟨op, hop, .refl op⟩) ?_⟩
      rintro _ _ _ ⟨⟩
    · rw [hserve] at hhistory ⊢
      cases hhistory
      obtain ⟨hanswer, hcases⟩ := hinv.retried hview hrun
      have hinv' : Inv s'.current (db :: older) := by
        rcases hcases with hdb | ⟨original, successor, hinserted, hunsuccessful⟩
        · rw [hdb]
          exact hsame
        · exact hinv.inserted hinserted ⟨view, hview, hunsuccessful⟩
      refine ⟨hinv', hanswered.snoc (fun op hop => hinv'.kept db (List.mem_cons_self ..) op hop) ?_⟩
      rintro _ _ _ ⟨⟩
      exact hanswer
  | other hother =>
    cases hhistory
    refine ⟨hinv.other hother, hanswered.snoc hother.kept ?_⟩
    rintro _ _ _ ⟨⟩

/-- Before the first retry every lineage is empty. -/
theorem inv_start {start : Database} (hunique : Table.Unique start.operations)
    (hfresh : ∀ op ∈ start.operations, op.retryOf = none) : Inv start [] where
  unique := hunique
  kept := by
    intro version hversion
    cases hversion
  source := by
    intro op hop name hretry
    rw [hfresh op hop] at hretry
    cases hretry
  once := by
    intro original _ _ a ha b _ hretryA _
    rw [hfresh a ha] at hretryA
    cases hretryA
  acyclic := by
    refine Lineage.acyclic_of_false ?_
    rintro a b ⟨op, hop, -, hretry⟩
    rw [hfresh op hop] at hretry
    cases hretry

/-- Every run keeps the invariant. -/
theorem inv_run {start : Database} {history : List Database} {labels : List Label}
    (hunique : Table.Unique start.operations)
    (hfresh : ∀ op ∈ start.operations, op.retryOf = none)
    (hrun : Run (Step R services) [start] labels history) :
    ∃ db older, history = db :: older ∧ Inv db older ∧ Answered db labels := by
  induction hrun with
  | nil =>
    refine ⟨start, [], rfl, inv_start hunique hfresh, ?_⟩
    rintro _ _ _ ⟨⟩
  | @snoc t u labels label hpre hlast ih =>
    obtain ⟨db, older, rfl, hinv, hanswered⟩ := ih
    have hhistory : ∃ db', u = db' :: db :: older := by
      cases hlast with
      | retry => exact ⟨_, rfl⟩
      | other => exact ⟨_, rfl⟩
    obtain ⟨db', rfl⟩ := hhistory
    exact ⟨db', db :: older, rfl, inv_step hinv hanswered hlast rfl⟩

/-- While only retries run, no row of an operation changes. -/
theorem retries_grow {start db : Database} {older : List Database} {labels : List Label}
    (hunique : Table.Unique start.operations)
    (hfresh : ∀ op ∈ start.operations, op.retryOf = none)
    (hrun : Run (Step R services) [start] labels (db :: older)) (hretries : Label.other ∉ labels) :
    ∀ version ∈ db :: older, version.operations <+: db.operations := by
  generalize hhistory : db :: older = history at hrun
  induction hrun generalizing db older with
  | nil =>
    cases hhistory
    intro version hversion
    cases List.mem_singleton.mp hversion
    exact List.prefix_rfl
  | @snoc t u labels label hpre hlast ih =>
    obtain ⟨db₀, older₀, rfl, hinv, -⟩ := inv_run hunique hfresh hpre
    have hinitial := ih (fun h => hretries (List.mem_append_left _ h)) rfl
    -- the induction is on the run: a retry appends its successor or nothing
    have hgrows : db₀.operations <+: db.operations ∧ older = db₀ :: older₀ := by
      cases hlast with
      | other => exact absurd (List.mem_append_right _ (List.mem_singleton_self _)) hretries
      | retry hview =>
        rename_i request view
        rcases serve_cases (retryOperation R services request) view db₀ with
          ⟨e, hserve⟩ | ⟨answer, s', hserved, hserve⟩
        · rw [hserve] at hhistory
          cases hhistory
          exact ⟨List.prefix_rfl, rfl⟩
        · rw [hserve] at hhistory
          cases hhistory
          refine ⟨?_, rfl⟩
          show db₀.operations <+: s'.current.operations
          rcases (hinv.retried hview hserved).2 with hdb | ⟨original, successor, hinserted, -⟩
          · have hsame : db₀.operations = s'.current.operations := by rw [hdb]
            exact hsame ▸ List.prefix_rfl
          · rw [hinserted.rows]
            exact List.prefix_append _ _
    obtain ⟨hgrows, rfl⟩ := hgrows
    cases hhistory
    intro version hversion
    rcases List.mem_cons.mp hversion with rfl | hold
    · exact List.prefix_rfl
    · exact (hinitial version hold).trans hgrows

/-- Over every interleaving of retries with other transactions, an operation that is no bulk child
has at most one successor, with its type, agent, bench, site and payload hash; the successor
was inserted over a version in which the operation had ended unsuccessfully and had none. Every
answered retry named that successor, every further one is answered with it and writes nothing, and
the links have no cycle. While only retries run, the operation is still one that ended
unsuccessfully. -/
theorem single_retry_successor {start db : Database} {older : List Database} {labels : List Label}
    (hunique : Table.Unique start.operations)
    (hfresh : ∀ op ∈ start.operations, op.retryOf = none)
    (hrun : Run (Step R services) [start] labels (db :: older)) :
    (∀ original ∈ db.operations, single original = true →
      (∀ a ∈ db.operations, ∀ b ∈ db.operations,
        a.retryOf = some original.name → b.retryOf = some original.name → a = b) ∧
      ∀ successor ∈ db.operations, successor.retryOf = some original.name →
        Succeeds original successor ∧
        (∃ version ∈ db :: older, Unsuccessful version original.name) ∧
        (Label.other ∉ labels → retryState original.state = true)) ∧
    (∀ request view answer, Label.retry request view (.ok answer) ∈ labels →
      ∃ successor ∈ db.operations, successor.name = answer.operationId ∧
        successor.retryOf = some request.operationId) ∧
    (∀ request, ∀ view ∈ db :: older, ∀ original, Permitted request view original →
      ∀ successor ∈ db.operations, successor.retryOf = some original.name →
        serve (retryOperation R services request) view db =
          (.ok ⟨successor.name, successor.state⟩, db)) ∧
    Lineage.Acyclic (link db) := by
  obtain ⟨db', older', hhistory, hinv, hanswered⟩ := inv_run hunique hfresh hrun
  cases hhistory
  refine ⟨fun original horiginal hsingle => ⟨hinv.once original horiginal hsingle, ?_⟩, hanswered,
    ?_, hinv.acyclic⟩
  · intro successor hsuccessor hretry
    obtain ⟨hsucceeds, version, hversion, hunsuccessful⟩ :=
      hinv.succeeds horiginal hsingle hsuccessor hretry
    refine ⟨hsucceeds, ⟨version, hversion, hunsuccessful⟩, fun hretries => ?_⟩
    obtain ⟨⟨op, hop, hname, hstate⟩, -⟩ := hunsuccessful
    have hop' : op ∈ db.operations :=
      (retries_grow hunique hfresh hrun hretries version hversion).subset hop
    have hrow : op = original := Table.eq_of_mem hinv.unique hop' horiginal hname
    exact hrow ▸ hstate
  · intro request view hview original hpermitted successor hsuccessor hretry
    obtain ⟨-, hsingle⟩ := hpermitted.state
    obtain ⟨row, hrow, hsame⟩ := hinv.still hview (Table.get?_mem hpermitted.found)
    have hsingleRow : single row = true := hsame.single_eq.trans hsingle
    have hretryRow : successor.retryOf = some row.name := by rw [hretry, hsame.name]
    -- the search finds the only successor there is
    have hfound : successor? db original.name = some successor := by
      cases hsearch : successor? db original.name with
      | none =>
        have hnone : successor? db row.name = none := hsame.name ▸ hsearch
        exact absurd hretryRow
          (hinv.no_successor hrow hsingleRow hnone (List.mem_cons_self ..) successor hsuccessor)
      | some found =>
        obtain ⟨hmem, hretryFound, -⟩ := successor?_eq_some hsearch
        have hretryFound : found.retryOf = some row.name := by rw [hretryFound, hsame.name]
        rw [hinv.once row hrow hsingleRow found hmem successor hsuccessor hretryFound hretryRow]
    unfold serve
    rw [retryOperation_again hpermitted hfound]

end

namespace Sample

open Dispatcher.Sample hiding runtime operation database agent bench site

/-- The payload of the operation, and its text. -/
def payload : List (String × Json) :=
  [("domain", .str "one.example"), ("execution_timeout_seconds", .int 3600),
    ("expected_inventory_digest", .null)]

@[inherit_doc payload]
def payloadJson : Text :=
  ("\x7b\"domain\":\"one.example\",\"execution_timeout_seconds\":3600,"
    ++ "\"expected_inventory_digest\":null\x7d").toList

def payloadHash : String := "1247f75b59cca617b12dce6819658ed251a89c2a0a4580d72068a9bcc59b5d79"

def capabilities : Text := "[\"site.migrate\"]".toList

/-- The UUID the first request would give its operation. -/
def successorId : String := "7a2d3c8f-4e58-4b69-8d21-8cf305e2b112"

/-- The text of its target key. -/
def targetJson : Text :=
  ("[\"" ++ successorId ++ "\",\"agent-1\",\"bench-1\",\"site-1\",\"" ++ emptyDigest ++ "\"]").toList

def targetHash : String := "527710ec13bffa780afd74212e4108d4b4f71b8e302165ea7b1ab73885e58dfd"

def runtime : Runtime :=
  Dispatcher.Sample.runtime [(payloadJson, payloadHash), (targetJson, targetHash)]
    [(payloadJson, .obj payload), (capabilities, .arr [.str "site.migrate"])]

def services : Services where
  validatePayload _ payload := .ok {
    normalizedPayload := payload, siteRequired := true, destructive := false
    preOperationBackup := false }
  readinessFailures _ _ _ _ := none
  commandLifetime := 300

/-- A migration that failed. -/
def operation : ControllerOperation :=
  { Dispatcher.Sample.operation with state := .failed, payloadJson, payloadHash }

def start : Database :=
  { Dispatcher.Sample.database with
    agents := [{ Dispatcher.Sample.agent with status := .online, capabilitiesJson := some capabilities }]
    benches := [{ Dispatcher.Sample.bench with capabilitiesJson := some capabilities }]
    sites := [{ Dispatcher.Sample.site with status := .active }]
    operations := [operation]
    operationTargets := [{ operationTarget with payloadHashSnapshot := payloadHash, state := .failed }]
    operationApprovals := []
    roles := [("alice@example.com", ["Controller Admin"]), ("bob@example.com", ["Controller Admin"])]
    featureConfig :=
      { masterEnabled := true, features := [("restore_and_reinstall", ["production"])] } }

def retry (actor uuid4 : String) : RetryRequest where
  actor := actor
  operationId := operationId
  recoveryConfirmed := false
  mayRead := true
  mayWrite := true
  uuid4 := uuid4
  insertion := ⟨"target-" ++ uuid4, now⟩
/-- The first request, and a concurrent one with the same snapshot. -/
def first : Except Exc Requested × Database :=
  serve (retryOperation runtime services (retry "alice@example.com" successorId)) start start

@[inherit_doc first]
def second : Except Exc Requested × Database :=
  serve (retryOperation runtime services (retry "bob@example.com" operationId)) start first.2

/-- The run of two retries of the sample operation. -/
theorem run : Run (Step runtime services) [start]
    [.retry (retry "alice@example.com" successorId) start first.1,
      .retry (retry "bob@example.com" operationId) start second.1]
    [second.2, first.2, start] :=
  ((Run.nil [start]).snoc (.retry (List.mem_cons_self ..))).snoc
    (.retry (List.mem_cons_of_mem _ (List.mem_cons_self ..)))

/-- The sample starts with one operation. -/
theorem unique_start : Table.Unique start.operations := List.nodup_singleton _

/-- It is no retry. -/
theorem fresh_start : ∀ op ∈ start.operations, op.retryOf = none := by
  intro op hop
  rw [List.mem_singleton.mp hop]
  rfl

/-- The sample operation is still there at the end. -/
theorem operation_mem : operation ∈ second.2.operations := by
  have hretries : Label.other ∉ [
      .retry (retry "alice@example.com" successorId) start first.1,
      .retry (retry "bob@example.com" operationId) start second.1] := by simp
  have hinitial := retries_grow unique_start fresh_start run hretries start (by simp)
  exact hinitial.subset (List.mem_singleton_self _)

end Sample

open Sample in
/-- Two retries of one failed operation are answered with one successor. -/
theorem single_retry_successor_sample :
    first.1 = .ok ⟨successorId, .awaitingApproval⟩ ∧ second.1 = first.1 ∧
      ∃ successor ∈ second.2.operations, successor.name = successorId ∧
        Succeeds operation successor ∧
        ∀ other ∈ second.2.operations, other.retryOf = some operation.name → other = successor := by
  have hfirst : first.1 = .ok ⟨successorId, .awaitingApproval⟩ := by decide +kernel
  have hsecond : second.1 = .ok ⟨successorId, .awaitingApproval⟩ := by decide +kernel
  obtain ⟨hsingle, hanswered, -, -⟩ := single_retry_successor unique_start fresh_start run
  obtain ⟨honce, hsucceeds⟩ := hsingle operation operation_mem rfl
  obtain ⟨successor, hsuccessor, hname, hretry⟩ :=
    hanswered (retry "alice@example.com" successorId) start ⟨successorId, .awaitingApproval⟩
      (by rw [hfirst]; exact List.mem_cons_self ..)
  refine ⟨hfirst, hsecond.trans hfirst.symm, successor, hsuccessor, hname,
    (hsucceeds successor hsuccessor hretry).1, fun other hother hretried => ?_⟩
  exact honce other hother successor hsuccessor hretried hretry

end OperationRequests
end FrappeController
