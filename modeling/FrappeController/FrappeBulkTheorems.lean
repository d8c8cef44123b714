import FrappeController.FrappeBulk
import FrappeController.OperationAuthoringTheorems
import Mathlib.Logic.Relation

/-!
# What a reconcile run does

Over any repository, a run that returns has started or cancelled targets (`Write`) and then
recorded its parent's progress (`reconcile_eq_ok`). Over the tables each of these writes has a
specification: what the transaction read when it returned, and the rows it wrote. Runs that raise
need none: they leave the savepoint or the database they began with.
-/

namespace FrappeController
namespace BulkOrchestrator

open Transaction (query forEach bind_apply_eq_ok query_eq_ok)
open Bulk

variable {σ : Type}

/-! ## Runs over any repository -/

/-- One write a run makes before it records its parent's progress: a planned target is started or
cancelled, or the child of another is asked to stop. -/
inductive Write (repository : BulkRepository σ) (R : Runtime) (parentId : String) : σ → σ → Prop
  | create {target : BulkTargetRuntime} {s s' : σ}
      (h : repository.createChild parentId target
        (childIdentity R parentId target.snapshot.targetKey target.attempt).1
        (childIdentity R parentId target.snapshot.targetKey target.attempt).2 s = .ok () s') :
      Write repository R parentId s s'
  | mark {target : BulkTargetRuntime} {s s' : σ}
      (h : repository.markUnstartedCancelled parentId target s = .ok () s') :
      Write repository R parentId s s'
  | cancel {target : BulkTargetRuntime} {s s' : σ}
      (h : repository.requestChildCancel parentId target s = .ok () s') :
      Write repository R parentId s s'

/-- Any number of them. -/
abbrev Writes (repository : BulkRepository σ) (R : Runtime) (parentId : String) : σ → σ → Prop :=
  Relation.ReflTransGen (Write repository R parentId)

section Runs

variable {repository : BulkRepository σ} {R : Runtime} {parentId : String} {s s' : σ}

/-- What holds of the loop's counts and the state, and is kept by each child that has room, holds
when the loop is done. -/
theorem startTargets_rule {policy : BulkExecutionPolicy} {I : InflightCounts → σ → Prop}
    (hcreate : ∀ {target : BulkTargetRuntime} {counts : InflightCounts} {s s' : σ},
      I counts s → ¬ policy.globalConcurrency ≤ counts.globalCount →
      belowLimits policy counts target.snapshot.agentId target.snapshot.benchId = true →
      repository.createChild parentId target
        (childIdentity R parentId target.snapshot.targetKey target.attempt).1
        (childIdentity R parentId target.snapshot.targetKey target.attempt).2 s = .ok () s' →
      I (counts.add target.snapshot.agentId target.snapshot.benchId) s')
    {targets : List BulkTargetRuntime} {counts : InflightCounts} (hs : I counts s)
    (h : startTargets repository R policy parentId targets counts s = .ok () s') :
    ∃ counts', I counts' s' := by
  induction targets generalizing counts s with
  | nil =>
    cases h
    exact ⟨counts, hs⟩
  | cons target rest ih =>
    unfold startTargets at h
    split at h
    · exact ih hs h
    · obtain ⟨startable, s₁, hread, h₁⟩ := bind_apply_eq_ok.mp h
      obtain ⟨-, rfl⟩ := query_eq_ok.mp hread
      split at h₁
      · exact ih hs h₁
      · split at h₁
        · cases h₁
          exact ⟨counts, hs⟩
        · rename_i hglobal
          split at h₁
          · exact ih hs h₁
          · rename_i hroom
            obtain ⟨⟨⟩, s₂, hchild, h₂⟩ := bind_apply_eq_ok.mp h₁
            exact ih (hcreate hs hglobal (by simpa using hroom) hchild) h₂

theorem startTargets_writes {policy : BulkExecutionPolicy} {targets : List BulkTargetRuntime}
    {counts : InflightCounts}
    (h : startTargets repository R policy parentId targets counts s = .ok () s') :
    Writes repository R parentId s s' := by
  have hrule := startTargets_rule (I := fun _ t => Writes repository R parentId s t)
    (fun hwrites _ _ hchild => hwrites.tail (.create hchild)) .refl h
  exact hrule.elim fun _ hwrites => hwrites

theorem cancelTargets_writes {targets : List BulkTargetRuntime}
    (h : forEach (cancelTarget repository parentId) targets s = .ok () s') :
    Writes repository R parentId s s' := by
  induction targets generalizing s with
  | nil =>
    cases h
    exact .refl
  | cons target rest ih =>
    obtain ⟨⟨⟩, s₁, hfirst, hrest⟩ := bind_apply_eq_ok.mp h
    refine Relation.ReflTransGen.trans ?_ (ih hrest)
    unfold cancelTarget at hfirst
    split at hfirst
    · exact .single (.mark hfirst)
    · split at hfirst
      · exact .single (.cancel hfirst)
      · cases hfirst
        exact .refl

/-- The parent's progress is recorded: its state and the counts follow from its targets. -/
structure Recorded (repository : BulkRepository σ) (parentId : String) (active state : BulkState)
    (s s' : σ) : Prop where
  recorded : ∃ targets, repository.targets parentId s = .ok targets ∧
    state = finalState targets active ∧
    repository.updateParent parentId state (aggregateChildStates (states targets)) s = .ok () s'

theorem update_eq_ok {active state : BulkState}
    (h : update repository parentId active s = .ok state s') :
    Recorded repository parentId active state s s' := by
  obtain ⟨targets, s₁, hread, h₁⟩ := bind_apply_eq_ok.mp h
  obtain ⟨htargets, rfl⟩ := query_eq_ok.mp hread
  obtain ⟨⟨⟩, s₂, hupdate, h₂⟩ := bind_apply_eq_ok.mp h₁
  cases h₂
  exact ⟨targets, htargets, rfl, hupdate⟩

/-- The state `advance` gives a parent that has targets to wait for. -/
def activeState (parent : BulkParentRuntime) (targets : List BulkTargetRuntime)
    (exhausted : Bool) : BulkState :=
  if parent.cancelRequested then .cancelling
  else if parent.pauseRequested || canariesExhausted parent targets || exhausted then .paused
  else if allTerminal (canaries parent.plan.policy targets) then .running
  else .canary

/-- A run that returns leaves a settled parent alone, or records the progress of its parent in a
state that no write, its cancellations or its loop led to. -/
theorem advance_rule {P : σ → Prop} {parent : BulkParentRuntime}
    {targets : List BulkTargetRuntime} {state : BulkState} (hnone : P s)
    (hcancels : ∀ {s₁}, forEach (cancelTarget repository parentId) targets s = .ok () s₁ → P s₁)
    (hstarts : ∀ {counts s₁}, repository.inflightCounts s = .ok counts →
      startTargets repository R parent.plan.policy parentId
        (eligible parent.plan.policy targets) counts s = .ok () s₁ → P s₁)
    (h : advance repository R parent parentId targets s = .ok state s') :
    (settled parent.state = true ∧ state = parent.state ∧ s' = s) ∨
    (settled parent.state = false ∧ ∃ exhausted s₁, P s₁ ∧
      Recorded repository parentId (activeState parent targets exhausted) state s₁ s') := by
  unfold advance at h
  split at h
  · rename_i hsettled
    cases h
    exact .inl ⟨hsettled, rfl, rfl⟩
  · rename_i hsettled
    refine .inr ⟨by simpa using hsettled, ?_⟩
    split at h
    -- a cancellation stands before a pause, and a pause before any start
    · rename_i hcancel
      obtain ⟨⟨⟩, s₁, hloop, hupdate⟩ := bind_apply_eq_ok.mp h
      refine ⟨false, s₁, hcancels hloop, ?_⟩
      rw [activeState, if_pos hcancel]
      exact update_eq_ok hupdate
    · rename_i hcancel
      -- without it, the state depends on the budget that is left after the starts
      have hactive : ∀ exhausted, activeState parent targets exhausted =
          if parent.pauseRequested || canariesExhausted parent targets || exhausted then .paused
          else if allTerminal (canaries parent.plan.policy targets) then .running
          else .canary := fun exhausted => if_neg hcancel
      split at h
      · rename_i hpause
        refine ⟨false, s, hnone, ?_⟩
        rw [hactive, hpause]
        exact update_eq_ok h
      · rename_i hpause
        split at h
        · rename_i hexhausted
          refine ⟨false, s, hnone, ?_⟩
          rw [hactive, hexhausted, Bool.or_true]
          exact update_eq_ok h
        · rename_i hexhausted
          obtain ⟨counts, s₁, hread, h₁⟩ := bind_apply_eq_ok.mp h
          obtain ⟨hcounts, rfl⟩ := query_eq_ok.mp hread
          obtain ⟨⟨⟩, s₂, hloop, h₂⟩ := bind_apply_eq_ok.mp h₁
          obtain ⟨refreshed, s₃, hrefresh, h₃⟩ := bind_apply_eq_ok.mp h₂
          obtain ⟨-, rfl⟩ := query_eq_ok.mp hrefresh
          refine ⟨failureBudgetExhausted (states refreshed) parent.plan.policy, s₂,
            hstarts hcounts hloop, ?_⟩
          rw [hactive, Bool.eq_false_iff.mpr hpause, Bool.eq_false_iff.mpr hexhausted]
          split at h₃
          · rename_i hbudget
            rw [hbudget]
            exact update_eq_ok h₃
          · rename_i hbudget
            rw [Bool.eq_false_iff.mpr hbudget]
            exact update_eq_ok h₃

/-- A run that returns leaves a settled parent alone, or makes its writes and records the progress
of its parent. -/
theorem advance_eq_ok {parent : BulkParentRuntime} {targets : List BulkTargetRuntime}
    {state : BulkState} (h : advance repository R parent parentId targets s = .ok state s') :
    (settled parent.state = true ∧ state = parent.state ∧ s' = s) ∨
    (settled parent.state = false ∧ ∃ exhausted s₁, Writes repository R parentId s s₁ ∧
      Recorded repository parentId (activeState parent targets exhausted) state s₁ s') :=
  advance_rule .refl cancelTargets_writes (fun _ hloop => startTargets_writes hloop) h

/-- `reconcile` read its parent and that parent's targets, and then did what `advance` does. -/
theorem reconcile_eq_ok {state : BulkState}
    (h : reconcile repository R parentId s = .ok state s') :
    ∃ parent targets, readParent repository parentId s = .ok (parent, targets) ∧
      advance repository R parent parentId targets s = .ok state s' := by
  obtain ⟨⟨parent, targets⟩, s₁, hread, h₁⟩ := bind_apply_eq_ok.mp h
  obtain ⟨hparent, rfl⟩ := query_eq_ok.mp hread
  exact ⟨parent, targets, hparent, h₁⟩

theorem readParent_eq_ok {parent : BulkParentRuntime} {targets : List BulkTargetRuntime}
    (h : readParent repository parentId s = .ok (parent, targets)) :
    repository.lockParent parentId s = .ok parent ∧
      repository.targets parentId s = .ok targets ∧
      targets.map (·.snapshot) = parent.plan.targets := by
  obtain ⟨parent', hlock, h⟩ := Transaction.bind_eq_ok.mp h
  obtain ⟨targets', htargets, h⟩ := Transaction.bind_eq_ok.mp h
  obtain ⟨⟨⟩, hchecked, h⟩ := Transaction.bind_eq_ok.mp h
  cases h
  obtain ⟨⟨⟩, -, hsame⟩ := Transaction.bind_eq_ok.mp hchecked
  have hplan := ensure_eq_ok.mp hsame
  exact ⟨hlock, htargets, by simpa using hplan⟩

end Runs

end BulkOrchestrator

namespace BulkDocuments

open FrappeInventory (Session read readForUpdate write read_eq_ok readForUpdate_eq_ok write_eq_ok)
open Transaction (bind_eq_ok bind_apply_eq_ok query_eq_ok)

variable {R : Runtime} {s s' : Session} {u : Unit}

/-! ## Saves -/

theorem saveBulkOperation_eq_ok {op : BulkOperation}
    (h : saveBulkOperation R op s = .ok u s') :
    ∃ previous, s.current.bulkOperation? op.name = some previous ∧
      validate R op (some previous) s.view = .ok () ∧
      s' = s.both fun db => db.setBulkOperation op.name fun _ => op := by
  obtain ⟨previous, s₁, hlocked, h₁⟩ := bind_apply_eq_ok.mp h
  obtain ⟨hprevious, rfl⟩ := readForUpdate_eq_ok.mp hlocked
  obtain ⟨⟨⟩, s₂, hread, h₂⟩ := bind_apply_eq_ok.mp h₁
  obtain ⟨hvalid, rfl⟩ := read_eq_ok.mp hread
  split at hprevious
  · cases hprevious
  · rename_i found hfound
    cases hprevious
    exact ⟨previous, hfound, hvalid, write_eq_ok.mp h₂⟩

theorem saveBulkTarget_eq_ok {t : BulkOperationTarget} (h : saveBulkTarget R t s = .ok u s') :
    ∃ previous, s.current.bulkTarget? t.name = some previous ∧
      validateTarget R t (some previous) s.view = .ok () ∧ freeTargetLinks t s.current = true ∧
      s' = s.both fun db => db.setBulkTarget t.name fun _ => t := by
  obtain ⟨previous, s₁, hlocked, h₁⟩ := bind_apply_eq_ok.mp h
  obtain ⟨hprevious, rfl⟩ := readForUpdate_eq_ok.mp hlocked
  obtain ⟨⟨⟩, s₂, hread, h₂⟩ := bind_apply_eq_ok.mp h₁
  obtain ⟨hvalid, rfl⟩ := read_eq_ok.mp hread
  obtain ⟨⟨⟩, s₃, hunique, h₃⟩ := bind_apply_eq_ok.mp h₂
  obtain ⟨hfree, rfl⟩ := readForUpdate_eq_ok.mp hunique
  split at hprevious
  · cases hprevious
  · rename_i found hfound
    cases hprevious
    exact ⟨previous, hfound, hvalid, ensure_eq_ok.mp hfree, write_eq_ok.mp h₃⟩

end BulkDocuments

namespace FrappeBulk

open FrappeInventory (Session read readForUpdate write read_eq_ok readForUpdate_eq_ok write_eq_ok)
open Transaction (bind_eq_ok bind_apply_eq_ok query_eq_ok)
open Bulk BulkOrchestrator BulkDocuments OperationDocuments

variable {R : Runtime} {E : Environment} {s s' : Session} {u : Unit}
variable {parentId childId key : String} {target : BulkTargetRuntime}

/-! ## Rows of targets -/

/-- The row found for a target is the parent's, and has the target's key and attempt. -/
theorem targetRow_eq_ok {db : Database} {row : BulkOperationTarget}
    (h : targetRow parentId target db = .ok row) :
    row ∈ db.bulkTargets ∧ row.bulkOperation = parentId ∧
      row.targetKey = target.snapshot.targetKey ∧ row.attempt = target.attempt := by
  unfold targetRow at h
  split at h
  · cases h
  · rename_i found hfound
    cases h
    have hmatch := List.find?_some hfound
    simp only [Bool.and_eq_true, beq_iff_eq] at hmatch
    exact ⟨List.mem_of_find?_eq_some hfound, hmatch.1.1, hmatch.1.2, hmatch.2⟩

theorem bulkTargetDocument_eq_ok {name : String} {db : Database} {t : BulkOperationTarget} :
    bulkTargetDocument name db = .ok t ↔ db.bulkTarget? name = some t := by
  unfold bulkTargetDocument
  cases db.bulkTarget? name <;> simp

theorem bulkOperationDocument_eq_ok {name : String} {db : Database} {op : BulkOperation} :
    bulkOperationDocument name db = .ok op ↔ db.bulkOperation? name = some op := by
  unfold bulkOperationDocument
  cases db.bulkOperation? name <;> simp

/-! ## Starting a child -/

/-- What `create_child` found: an approved parent that may start children, and the planned row of
the target. -/
structure Eligible (parentId : String) (target : BulkTargetRuntime) (db : Database)
    (parent : BulkOperation) (row : BulkOperationTarget) : Prop where
  found : targetRow parentId target db = .ok row
  foundParent : db.bulkOperation? parentId = some parent
  approved : parent.approvalStatus = .approved
  active : parent.state = .approved ∨ parent.state = .canary ∨ parent.state = .running
  planned : row.state = .planned

theorem eligibleChild_eq_ok {db : Database} {parent : BulkOperation} {row : BulkOperationTarget}
    (h : eligibleChild parentId target db = .ok (parent, row)) :
    Eligible parentId target db parent row := by
  obtain ⟨row', hrow, h⟩ := bind_eq_ok.mp h
  split at h
  · cases h
  · rename_i parent' hparent
    obtain ⟨⟨⟩, hchecked, h⟩ := bind_eq_ok.mp h
    cases h
    have hcond := ensure_eq_ok.mp hchecked
    simp only [Bool.and_eq_true, beq_iff_eq, List.contains_eq_mem, List.mem_cons,
      List.not_mem_nil, or_false, decide_eq_true_eq] at hcond
    exact ⟨hrow, hparent, hcond.1.1, hcond.1.2, hcond.2⟩

/-- The database with the saved row of a target. -/
def saveRow (saved : BulkOperationTarget) (db : Database) : Database :=
  db.setBulkTarget saved.name fun _ => saved

/-- `db.set_value("Bulk Operation Target", name, "state", state)` -/
def setTargetState (name : String) (state : BulkTargetState) (db : Database) : Database :=
  db.setBulkTarget name fun t => { t with state }

/-- An operation is inserted with its target and linked to a bulk target, of which `document` was
read and `saved` is written: what was checked of each. -/
structure Opens (R : Runtime) (s : Session) (op : ControllerOperation) (t : OperationTarget)
    (name : String) (document saved : BulkOperationTarget) : Prop where
  valid : OperationDocuments.validate R none false op s.view = .ok ()
  free : freeColumns op s.current = true
  validTarget : OperationDocuments.validateTarget t (addOperation op s.view) = .ok ()
  freeTarget : freeTargetColumns t (addOperation op s.current) = true
  read : s.view.bulkTarget? name = some document
  stored : ∃ previous, s.current.bulkTarget? saved.name = some previous ∧
    BulkDocuments.validateTarget R saved (some previous) (addTarget t (addOperation op s.view))
      = .ok ()
  freeLinks : freeTargetLinks saved (addTarget t (addOperation op s.current)) = true

theorem enqueue_eq_ok {name : String} (h : enqueue R E name s = .ok u s') :
    ∃ env, enqueueApprovedOperation R E.lifetime name (E.clock name) s = .ok env s' := by
  obtain ⟨env, s₁, henqueue, h₁⟩ := bind_apply_eq_ok.mp h
  cases h₁
  exact ⟨env, henqueue⟩

theorem startChild_eq_ok {parent : BulkOperation} {row : BulkOperationTarget}
    (h : startChild R E parent row target childId key s = .ok u s') :
    ∃ document s₁ env, Opens R s (childDocument E parent row childId key s.view)
        (childTarget R E parent row target childId s.view) row.name document
        { document with childOperation := some childId } ∧
      enqueueApprovedOperation R E.lifetime childId (E.clock childId)
        (s.both (saveRow { document with childOperation := some childId }
          ∘ addTarget (childTarget R E parent row target childId s.view)
          ∘ addOperation (childDocument E parent row childId key s.view))) = .ok env s₁ ∧
      s' = s₁.both (setTargetState row.name (.child .queued)) := by
  obtain ⟨op, t₀, hop, h⟩ := bind_apply_eq_ok.mp h
  obtain ⟨heq, rfl⟩ := read_eq_ok.mp hop
  cases heq
  obtain ⟨t, t₁, ht, h⟩ := bind_apply_eq_ok.mp h
  obtain ⟨heq, rfl⟩ := read_eq_ok.mp ht
  cases heq
  obtain ⟨⟨⟩, t₂, hinsert, h⟩ := bind_apply_eq_ok.mp h
  obtain ⟨hvalid, hfree, rfl⟩ := insertOperation_eq_ok hinsert
  obtain ⟨⟨⟩, t₃, hinsertTarget, h⟩ := bind_apply_eq_ok.mp h
  obtain ⟨hvalidTarget, hfreeTarget, rfl⟩ := insertTarget_eq_ok hinsertTarget
  obtain ⟨document, t₄, hread, h⟩ := bind_apply_eq_ok.mp h
  obtain ⟨hdocument, rfl⟩ := read_eq_ok.mp hread
  -- the row is linked to its child before the child is dispatched
  obtain ⟨⟨⟩, t₅, hsave, h⟩ := bind_apply_eq_ok.mp h
  obtain ⟨previous, hprevious, hsaved, hlinks, rfl⟩ := saveBulkTarget_eq_ok hsave
  obtain ⟨⟨⟩, t₆, hdispatch, h⟩ := bind_apply_eq_ok.mp h
  obtain ⟨env, henqueue⟩ := enqueue_eq_ok hdispatch
  refine ⟨document, t₆, env, ?_, henqueue, write_eq_ok.mp h⟩
  exact ⟨hvalid, hfree, hvalidTarget, hfreeTarget, bulkTargetDocument_eq_ok.mp hdocument,
    ⟨previous, hprevious, hsaved⟩, hlinks⟩

/-- A child that is created is new, with its documents, or is the one its target has. -/
theorem createChild_eq_ok (h : createChild R E parentId target childId key s = .ok u s') :
    ∃ parent row, Eligible parentId target s.view parent row ∧
      ((truthy row.childOperation = true ∧ row.childOperation = some childId ∧
        ∃ env, enqueueApprovedOperation R E.lifetime childId (E.clock childId) s = .ok env s') ∨
      (truthy row.childOperation = false ∧
        startChild R E parent row target childId key s = .ok () s')) := by
  obtain ⟨⟨parent, row⟩, s₁, hread, h₁⟩ := bind_apply_eq_ok.mp h
  obtain ⟨hfound, rfl⟩ := read_eq_ok.mp hread
  refine ⟨parent, row, eligibleChild_eq_ok hfound, ?_⟩
  split at h₁
  · rename_i hlinked
    split at h₁
    · rename_i hchild
      exact .inl ⟨hlinked, hchild, enqueue_eq_ok h₁⟩
    · cases h₁
  · rename_i hlinked
    exact .inr ⟨by simpa using hlinked, h₁⟩

/-! ## Stopping a child -/

/-- What `request_child_cancel` found: a parent whose cancellation `user` asked for, and the row of
a target with an unfinished child. -/
structure Cancellable (parentId : String) (target : BulkTargetRuntime) (db : Database)
    (user : String) (row : BulkOperationTarget) (child : String) : Prop where
  found : targetRow parentId target db = .ok row
  requested : ∃ parent, db.bulkOperation? parentId = some parent ∧
    parent.cancelRequested = true ∧ parent.cancelRequestedBy = some user
  linked : row.childOperation = some child
  nonempty : child ≠ ""
  unfinished : row.state.terminal = false

theorem cancellable_eq_ok {db : Database} {user child : String} {row : BulkOperationTarget}
    (h : cancellable parentId target db = .ok (user, row, child)) :
    Cancellable parentId target db user row child := by
  obtain ⟨row', hrow, h⟩ := bind_eq_ok.mp h
  split at h
  · rename_i user' hattributed
    split at h
    · cases h
    · rename_i child' hchild
      obtain ⟨⟨⟩, hopen, h⟩ := bind_eq_ok.mp h
      cases h
      obtain ⟨parent, hparent, hcolumns⟩ := Option.map_eq_some_iff.mp hattributed
      obtain ⟨hcancel, huser⟩ := Prod.mk.inj hcolumns
      have hlink := orNone_eq_some.mp hchild
      exact ⟨hrow, ⟨parent, hparent, hcancel, (orNone_eq_some.mp huser).1⟩, hlink.1, hlink.2,
        by simpa using ensure_eq_ok.mp hopen⟩
  · cases h

theorem startCancel_eq_ok {user child cancellation : String} {row : BulkOperationTarget}
    (h : startCancel R E user row target child cancellation s = .ok u s') :
    ∃ document revision env, Opens R s (cancelDocument R E user row child cancellation)
        (cancelTargetDocument R E row target child cancellation revision) row.name document
        { document with cancellationOperation := some cancellation } ∧
      enqueueApprovedOperation R E.lifetime cancellation (E.clock cancellation)
        (s.both (saveRow { document with cancellationOperation := some cancellation }
          ∘ addTarget (cancelTargetDocument R E row target child cancellation revision)
          ∘ addOperation (cancelDocument R E user row child cancellation))) = .ok env s' := by
  obtain ⟨revision, t₀, hread, h⟩ := bind_apply_eq_ok.mp h
  obtain ⟨-, rfl⟩ := read_eq_ok.mp hread
  obtain ⟨⟨⟩, t₁, hinsert, h⟩ := bind_apply_eq_ok.mp h
  obtain ⟨hvalid, hfree, rfl⟩ := insertOperation_eq_ok hinsert
  obtain ⟨⟨⟩, t₂, hinsertTarget, h⟩ := bind_apply_eq_ok.mp h
  obtain ⟨hvalidTarget, hfreeTarget, rfl⟩ := insertTarget_eq_ok hinsertTarget
  obtain ⟨document, t₃, hdocuments, h⟩ := bind_apply_eq_ok.mp h
  obtain ⟨hdocument, rfl⟩ := read_eq_ok.mp hdocuments
  obtain ⟨⟨⟩, t₄, hsave, h⟩ := bind_apply_eq_ok.mp h
  obtain ⟨previous, hprevious, hsaved, hlinks, rfl⟩ := saveBulkTarget_eq_ok hsave
  obtain ⟨env, henqueue⟩ := enqueue_eq_ok h
  refine ⟨document, revision, env, ?_, henqueue⟩
  exact ⟨hvalid, hfree, hvalidTarget, hfreeTarget, bulkTargetDocument_eq_ok.mp hdocument,
    ⟨previous, hprevious, hsaved⟩, hlinks⟩

/-- A target that is asked to stop is so for the first time, or its cancellation is there. -/
theorem requestChildCancel_eq_ok (h : requestChildCancel R E parentId target s = .ok u s') :
    ∃ user row child, Cancellable parentId target s.view user row child ∧
      ((truthy row.cancellationOperation = true ∧
        row.cancellationOperation = some (cancellationId R parentId child) ∧ s' = s) ∨
      (truthy row.cancellationOperation = false ∧
        startCancel R E user row target child (cancellationId R parentId child) s = .ok () s')) := by
  obtain ⟨⟨user, row, child⟩, s₁, hread, h₁⟩ := bind_apply_eq_ok.mp h
  obtain ⟨hfound, rfl⟩ := read_eq_ok.mp hread
  refine ⟨user, row, child, cancellable_eq_ok hfound, ?_⟩
  dsimp only at h₁
  split at h₁
  · rename_i hlinked
    split at h₁
    · rename_i hsame
      cases h₁
      exact .inl ⟨hlinked, hsame, rfl⟩
    · cases h₁
  · rename_i hlinked
    exact .inr ⟨by simpa using hlinked, h₁⟩

theorem markUnstartedCancelled_eq_ok (h : markUnstartedCancelled parentId target s = .ok u s') :
    ∃ row, targetRow parentId target s.view = .ok row ∧ truthy row.childOperation = false ∧
      row.state = .planned ∧ s' = s.both (setTargetState row.name (.child .cancelled)) := by
  obtain ⟨row, s₁, hread, h₁⟩ := bind_apply_eq_ok.mp h
  obtain ⟨hrow, rfl⟩ := read_eq_ok.mp hread
  obtain ⟨row', hfound, hrow⟩ := bind_eq_ok.mp hrow
  obtain ⟨⟨⟩, hchecked, hrow⟩ := bind_eq_ok.mp hrow
  cases hrow
  have hcond := ensure_eq_ok.mp hchecked
  simp only [Bool.and_eq_true, Bool.not_eq_true', beq_iff_eq] at hcond
  exact ⟨row, hfound, hcond.1, hcond.2, write_eq_ok.mp h₁⟩

/-! ## Progress -/

theorem updateParent_eq_ok {state : BulkState} {aggregate : BulkAggregate}
    (h : updateParent R E parentId state aggregate s = .ok u s') :
    ∃ parent previous, s.view.bulkOperation? parentId = some parent ∧
      s.current.bulkOperation? parentId = some previous ∧
      validate R (recordProgress (E.clock parentId) state aggregate parent) (some previous) s.view
        = .ok () ∧
      s' = s.both fun db => db.setBulkOperation parentId fun _ =>
        recordProgress (E.clock parentId) state aggregate parent := by
  obtain ⟨parent, s₁, hread, h₁⟩ := bind_apply_eq_ok.mp h
  obtain ⟨hparent, rfl⟩ := read_eq_ok.mp hread
  have hfound := bulkOperationDocument_eq_ok.mp hparent
  obtain ⟨previous, hprevious, hvalid, hs'⟩ := saveBulkOperation_eq_ok h₁
  have hname : (recordProgress (E.clock parentId) state aggregate parent).name = parentId :=
    Table.get?_name hfound
  rw [hname] at hprevious hs'
  exact ⟨parent, previous, hfound, hprevious, hvalid, hs'⟩

end FrappeBulk
end FrappeController
