import FrappeController.FrappeBulkTheorems
import FrappeController.OperationLifecycle

/-!
# The bulk scheduler among the steps of the lifecycle

`OperationLifecycle` leaves the scheduler to its `OtherStep`. Here a whole pass, with its children,
cancellations and rollbacks, is shown to be a run of that module's steps (`pass_simulated`): the
rows it authors and the states it records are steps of other transactions, and every operation it
queues is queued by a dispatch. What holds of all runs there holds with the scheduler running.
-/

namespace FrappeController
namespace FrappeBulk

open FrappeInventory (Session)
open Lifecycle Bulk BulkOrchestrator BulkDocuments OperationDocuments
open FrappeRepository (serve serveEvents)
open Transaction (bind_apply_eq_ok query_eq_ok)

/-! ## The rows a pass starts from -/

/-- The targets of operations belong to operations, and a bulk target is identified by its name. -/
structure Linked (db : Database) : Prop where
  schema : Schema db
  targets : ∀ t ∈ db.operationTargets, ∃ op ∈ db.operations, op.name = t.operation
  bulkTargets : Table.Unique db.bulkTargets

section Rows

variable {db : Database} {op : ControllerOperation} {t : OperationTarget}

/-- An operation with free columns differs from the stored ones in every identifying column. -/
theorem ne_of_freeColumns {other : ControllerOperation} (h : freeColumns op db = true)
    (hother : other ∈ db.operations) : other.name ≠ op.name ∧ other.operationId ≠ op.operationId ∧
      (truthy op.bulkTarget = true → other.bulkTarget ≠ op.bulkTarget) := by
  have hall : ∀ other ∈ db.operations, ¬ (other.name == op.name
      || other.operationId == op.operationId || other.idempotencyKey == op.idempotencyKey
      || (truthy op.bulkTarget && other.bulkTarget == op.bulkTarget)) = true := by
    simpa [freeColumns] using h
  have hnone := hall other hother
  simp only [Bool.or_eq_true, Bool.and_eq_true, beq_iff_eq, not_or, not_and] at hnone
  exact ⟨hnone.1.1.1, hnone.1.1.2, hnone.2⟩

/-- A value that is not none is truthy. -/
theorem truthy_of_orNone {value : Option String} {a : String} (h : orNone value = some a) :
    truthy value = true ∧ value = some a := by
  refine ⟨?_, (orNone_eq_some.mp h).1⟩
  rw [truthy, h]
  rfl

/-- A new operation with free columns keeps the operations identified. -/
theorem schema_addOperation (hschema : Schema db) (hfree : freeColumns op db = true) :
    Schema (addOperation op db) where
  names := by
    have hnew : ∀ name ∈ db.operations.map Named.name, name ≠ op.name := by
      intro name hname
      obtain ⟨other, hother, rfl⟩ := List.mem_map.mp hname
      exact (ne_of_freeColumns hfree hother).1
    show ((db.operations ++ [op]).map Named.name).Nodup
    rw [List.map_append]
    exact hschema.names.append (List.nodup_singleton _) fun name hname hop =>
      hnew name hname (List.mem_singleton.mp hop)
  ids := by
    show ((db.operations ++ [op]).map (·.operationId)).Nodup
    rw [List.map_append]
    refine hschema.ids.append (List.nodup_singleton _) fun id hid hop => ?_
    obtain ⟨other, hother, rfl⟩ := List.mem_map.mp hid
    exact (ne_of_freeColumns hfree hother).2.1 (List.mem_singleton.mp hop)
  bulk := by
    intro first hfirst second hsecond name hname hname'
    have hsame : ∀ {old : ControllerOperation}, old ∈ db.operations →
        orNone old.bulkTarget = some name → orNone op.bulkTarget ≠ some name := by
      intro old hold hbulk hbulk'
      have hnew := truthy_of_orNone hbulk'
      apply (ne_of_freeColumns hfree hold).2.2 hnew.1
      rw [(truthy_of_orNone hbulk).2, hnew.2]
    rcases List.mem_append.mp hfirst with hold | hnew
    · rcases List.mem_append.mp hsecond with hold' | hnew'
      · exact hschema.bulk first hold second hold' name hname hname'
      · rw [List.mem_singleton.mp hnew'] at hname'
        exact absurd hname' (hsame hold hname)
    · rw [List.mem_singleton.mp hnew] at hname
      rcases List.mem_append.mp hsecond with hold' | hnew'
      · exact absurd hname (hsame hold' hname')
      · rw [List.mem_singleton.mp hnew, List.mem_singleton.mp hnew']

end Rows

/-! ## Simulation -/

/-- The steps a pass is made of. -/
def Scheduled : Label → Prop
  | .other | .dispatch _ _ => True
  | _ => False

/-- From `db`, whatever was committed before it, such steps lead to `db'`. -/
structure Simulated (R : Runtime) (lifetime clockSkew : ℕ) (db db' : Database) : Prop where
  linked : Linked db'
  run : ∀ older, ∃ labels versions,
    Run (Step R lifetime clockSkew) (db :: older) labels (db' :: versions) ∧
      ∀ l ∈ labels, Scheduled l

namespace Simulated

variable {R : Runtime} {lifetime clockSkew : ℕ} {db db' db'' : Database}

/-- No write takes no step. -/
theorem refl (h : Linked db) : Simulated R lifetime clockSkew db db :=
  ⟨h, fun older => ⟨[], older, .nil _, fun _ hl => absurd hl List.not_mem_nil⟩⟩

/-- The steps of two writes follow one another. -/
theorem trans (h : Simulated R lifetime clockSkew db db')
    (h' : Simulated R lifetime clockSkew db' db'') : Simulated R lifetime clockSkew db db'' := by
  refine ⟨h'.linked, fun older => ?_⟩
  obtain ⟨labels, versions, hrun, hlabels⟩ := h.run older
  obtain ⟨labels', versions', hrun', hlabels'⟩ := h'.run versions
  refine ⟨labels ++ labels', versions', hrun.append hrun', fun l hl => ?_⟩
  rcases List.mem_append.mp hl with hl | hl
  · exact hlabels l hl
  · exact hlabels' l hl

/-- A write of another kind is one step of another transaction. -/
theorem other (h : OtherStep db db') (hlinked : Linked db') :
    Simulated R lifetime clockSkew db db' := by
  refine ⟨hlinked, fun older => ⟨[.other], db :: older, .single (.other h), fun l hl => ?_⟩⟩
  rw [List.mem_singleton.mp hl]
  exact trivial

end Simulated

/-! ## Steps of other transactions -/

section Other

variable {db : Database}

/-- A transaction that leaves operations and targets as they are. -/
theorem otherStep_of_same {db' : Database} (hschema : Schema db)
    (hoperations : db'.operations = db.operations)
    (htargets : db'.operationTargets = db.operationTargets)
    (hbulk : db'.bulkTargets = db.bulkTargets) : OtherStep db db' :=
  EventsOnly.other hschema ⟨by rw [hoperations], htargets, hbulk⟩

/-- A planned bulk target is started or cancelled. -/
theorem otherStep_setTargetState {row : BulkOperationTarget} {state : OperationState}
    (hlinked : Linked db) (hrow : row ∈ db.bulkTargets) (hplanned : row.state = .planned)
    (hstate : state = .queued ∨ state = .cancelled) :
    OtherStep db (setTargetState row.name (.child state) db) := by
  have hmove : ∀ b ∈ db.bulkTargets, BulkMove b.state
      (if b.name = row.name then { b with state := BulkTargetState.child state } else b).state := by
    intro b hb
    split
    · rename_i hname
      rw [Table.eq_of_mem hlinked.bulkTargets hb hrow hname, hplanned]
      exact .inr ⟨rfl, hstate.imp (congrArg _) (congrArg _)⟩
    · exact .inl rfl
  have hname : ∀ b : BulkOperationTarget,
      (if b.name = row.name then { b with state := BulkTargetState.child state } else b).name
        = b.name := by
    intro b
    split <;> rfl
  exact {
    schema := ⟨hlinked.schema.names, hlinked.schema.ids, hlinked.schema.bulk⟩
    kept := fun op hop => ⟨op, hop, rfl, rfl, rfl, rfl, rfl, rfl, rfl⟩
    old := fun op hop => .inl ⟨op, hop, rfl, rfl, rfl, rfl, rfl, rfl, rfl⟩
    keptTarget := fun t ht => ⟨t, ht, rfl, rfl, rfl⟩
    oldTarget := fun t ht => .inl ⟨t, ht, rfl, rfl, rfl⟩
    keptBulkTarget := fun b hb =>
      ⟨_, (Table.mem_update _ _).mpr ⟨b, hb, rfl⟩, hname b, hmove b hb⟩
    oldBulkTarget := fun b' hb' => by
      obtain ⟨b, hb, rfl⟩ := (Table.mem_update _ _).mp hb'
      exact .inl ⟨b, hb, hname b, hmove b hb⟩ }

/-- The state of a bulk target keeps the rows linked. -/
theorem linked_setTargetState (hlinked : Linked db) (name : String) (state : BulkTargetState) :
    Linked (setTargetState name state db) :=
  ⟨⟨hlinked.schema.names, hlinked.schema.ids, hlinked.schema.bulk⟩, hlinked.targets,
    (Table.unique_setValue (f := fun t : BulkOperationTarget => { t with state })
      fun _ hname => hname).mpr hlinked.bulkTargets⟩

/-- An operation that waits for its dispatch, with its target, and the row of the bulk target it
is linked to. -/
structure Opened (db : Database) (op : ControllerOperation) (t : OperationTarget)
    (document saved : BulkOperationTarget) : Prop where
  free : freeColumns op db = true
  state : op.state = .awaitingApproval
  commandHash : op.commandHash = none
  resultHash : op.resultHash = none
  target : t.operation = op.name ∧ t.state = .awaitingApproval
  read : db.bulkTarget? saved.name = some document
  kept : saved.state = document.state
  child : ∀ name, orNone op.bulkTarget = some name → name = saved.name ∧ saved.state = .planned

variable {op : ControllerOperation} {t : OperationTarget} {document saved : BulkOperationTarget}

/-- An inserted operation with its target keeps the rows linked. -/
theorem linked_open (hlinked : Linked db) (hfree : freeColumns op db = true)
    (htarget : t.operation = op.name) :
    Linked (saveRow saved (addTarget t (addOperation op db))) where
  schema := by
    have hschema := schema_addOperation hlinked.schema hfree
    exact ⟨hschema.names, hschema.ids, hschema.bulk⟩
  targets := by
    intro t' ht'
    rcases List.mem_append.mp ht' with hold | hnew
    · obtain ⟨op', hop', hname⟩ := hlinked.targets t' hold
      exact ⟨op', List.mem_append_left _ hop', hname⟩
    · refine ⟨op, List.mem_append_right _ (List.mem_singleton_self op), ?_⟩
      rw [List.mem_singleton.mp hnew]
      exact htarget.symm
  bulkTargets :=
    (Table.unique_setValue (f := fun _ => saved) fun _ _ => rfl).mpr hlinked.bulkTargets

/-- Inserting an operation with its target, and linking a bulk target to it, is a step of another
transaction. -/
theorem otherStep_open (hlinked : Linked db) (h : Opened db op t document saved) :
    OtherStep db (saveRow saved (addTarget t (addOperation op db))) := by
  have hdocument : document ∈ db.bulkTargets := Table.get?_mem h.read
  have hmove : ∀ b ∈ db.bulkTargets,
      (if Named.name b = saved.name then saved else b).name = b.name ∧
        BulkMove b.state (if Named.name b = saved.name then saved else b).state := by
    intro b hb
    split
    · rename_i hname
      have hsame : b = document := Table.eq_of_mem hlinked.bulkTargets hb hdocument
        (hname.trans (Table.get?_name h.read).symm)
      exact ⟨hname.symm, .inl (h.kept.trans (congrArg _ hsame.symm))⟩
    · exact ⟨rfl, .inl rfl⟩
  -- no older target carries the new operation's name
  have hfresh : Fresh (saveRow saved (addTarget t (addOperation op db))) op := {
    state := h.state, commandHash := h.commandHash, resultHash := h.resultHash
    targets := by
      intro t' ht' hof
      rcases List.mem_append.mp ht' with hold | hnew
      · obtain ⟨op', hop', hname⟩ := hlinked.targets t' hold
        exact absurd (hname.trans hof) (ne_of_freeColumns h.free hop').1
      · rw [List.mem_singleton.mp hnew]
        exact h.target.2
    bulkTargets := by
      intro b' hb' hof
      obtain ⟨hname, hplanned⟩ := h.child _ hof
      obtain ⟨b, hb, rfl⟩ := (Table.mem_update _ _).mp hb'
      rw [(hmove b hb).1] at hname
      left
      rw [if_pos (show Named.name b = saved.name from hname)]
      exact hplanned }
  exact {
    schema := (linked_open hlinked h.free h.target.1).schema
    kept := fun op' hop' =>
      ⟨op', List.mem_append_left _ hop', rfl, rfl, rfl, rfl, rfl, rfl, rfl⟩
    old := fun op' hop' => by
      rcases List.mem_append.mp hop' with hold | hnew
      · exact .inl ⟨op', hold, rfl, rfl, rfl, rfl, rfl, rfl, rfl⟩
      · rw [List.mem_singleton.mp hnew]
        exact .inr hfresh
    keptTarget := fun t' ht' => ⟨t', List.mem_append_left _ ht', rfl, rfl, rfl⟩
    oldTarget := fun t' ht' => by
      rcases List.mem_append.mp ht' with hold | hnew
      · exact .inl ⟨t', hold, rfl, rfl, rfl⟩
      · rw [List.mem_singleton.mp hnew]
        exact .inr h.target.2
    keptBulkTarget := fun b hb => ⟨_, (Table.mem_update _ _).mpr ⟨b, hb, rfl⟩, hmove b hb⟩
    oldBulkTarget := fun b' hb' => by
      obtain ⟨b, hb, rfl⟩ := (Table.mem_update _ _).mp hb'
      exact .inl ⟨b, hb, hmove b hb⟩ }

end Other

/-! ## The writes of a reconcile run -/

section Writes

variable {R : Runtime} {E : Environment} (clockSkew : ℕ) {db : Database} {s' : Session}
variable {parentId childId key : String} {target : BulkTargetRuntime} {u : Unit}

/-- A transaction whose snapshot is the newest version. -/
def synced (db : Database) : Session := ⟨db, db⟩

/-- A dispatch keeps the rows linked. -/
theorem linked_queued (hlinked : Linked db) (name : String) (text : Text) (digest : String) :
    Linked (queued name text digest db) where
  schema := schema_advance hlinked.schema
    ⟨fun _ => ⟨rfl, rfl, rfl⟩, fun _ => ⟨rfl, rfl⟩, fun _ => rfl⟩
  targets := by
    intro t' ht'
    obtain ⟨t, ht, rfl⟩ := mem_operationTargets_advance.mp ht'
    obtain ⟨op, hop, hname⟩ := hlinked.targets t ht
    refine ⟨_, mem_operations_advance.mpr ⟨op, hop, rfl⟩, ?_⟩
    rw [show (if op.name = name then Dispatcher.queue text digest op else op).name = op.name by
      split <;> rfl, hname]
    split <;> rfl
  bulkTargets := hlinked.bulkTargets

/-- What the scheduler queues, a dispatch queues. -/
theorem simulated_enqueue {name : String} {now : DateTime} {env : List (String × Json)}
    (hlinked : Linked db)
    (h : enqueueApprovedOperation R E.lifetime name now (synced db) = .ok env s') :
    ∃ db', s' = synced db' ∧ db'.bulkTargets = db.bulkTargets ∧
      Simulated R E.lifetime clockSkew db db' := by
  obtain ⟨env', s₁, hlocked, h₁⟩ := bind_apply_eq_ok.mp h
  obtain ⟨henv, rfl⟩ := FrappeInventory.readForUpdate_eq_ok.mp hlocked
  obtain ⟨op, s₂, hread, h₂⟩ := bind_apply_eq_ok.mp h₁
  obtain ⟨hop, rfl⟩ := FrappeInventory.read_eq_ok.mp hread
  obtain ⟨digest, s₃, hquery, h₃⟩ := bind_apply_eq_ok.mp h₂
  obtain ⟨hdigest, rfl⟩ := query_eq_ok.mp hquery
  split at h₃
  · cases h₃
    exact ⟨db, rfl, rfl, .refl hlinked⟩
  · rename_i hnew
    split at h₃
    · cases h₃
    · rename_i hdispatchable
      obtain ⟨text, s₄, hencode, h₄⟩ := bind_apply_eq_ok.mp h₃
      obtain ⟨htext, rfl⟩ := query_eq_ok.mp hencode
      obtain ⟨⟨⟩, s₅, hwrite, h₅⟩ := bind_apply_eq_ok.mp h₄
      cases h₅
      refine ⟨queued name text digest db, FrappeInventory.write_eq_ok.mp hwrite, rfl,
        linked_queued hlinked name text digest, fun older => ?_⟩
      have hfound : db.operation? name = some op := by
        have hrow := hop
        split at hrow
        · cases hrow
        · rename_i found hfound
          cases hrow
          exact hfound
      -- the same reads and the same write, on the newest version
      have hdispatch : Dispatcher.dispatch R E.lifetime name now db
          = .ok env (queued name text digest db) := by
        refine bind_apply_eq_ok.mpr ⟨env, db, query_eq_ok.mpr ⟨henv, rfl⟩, ?_⟩
        refine bind_apply_eq_ok.mpr ⟨digest, db, query_eq_ok.mpr ⟨hdigest, rfl⟩, ?_⟩
        refine bind_apply_eq_ok.mpr ⟨text, db, query_eq_ok.mpr ⟨htext, rfl⟩, ?_⟩
        refine bind_apply_eq_ok.mpr ⟨db, db, rfl, ?_⟩
        simp only [hfound]
        rw [if_neg hnew, if_neg hdispatchable]
        rfl
      refine ⟨[.dispatch name now], db :: older, .single ?_, fun l hl => ?_⟩
      · rw [← Transaction.committed_of_ok hdispatch]
        exact .dispatch
      · rw [List.mem_singleton.mp hl]
        exact trivial

/-- The creation of a child is an insertion and a dispatch. -/
theorem simulated_createChild (hlinked : Linked db)
    (h : createChild R E parentId target childId key (synced db) = .ok u s') :
    ∃ db', s' = synced db' ∧ Simulated R E.lifetime clockSkew db db' := by
  obtain ⟨parent, row, heligible, ⟨-, -, env, hagain⟩ | ⟨-, hstart⟩⟩ := createChild_eq_ok h
  · obtain ⟨db', hs', -, hsimulated⟩ := simulated_enqueue clockSkew hlinked hagain
    exact ⟨db', hs', hsimulated⟩
  · obtain ⟨document, s₁, env, hopens, henqueue, rfl⟩ := startChild_eq_ok hstart
    have hrow : row ∈ db.bulkTargets := (targetRow_eq_ok heligible.found).1
    have hread : db.bulkTarget? row.name = some document := hopens.read
    have hsame : document = row := Table.eq_of_mem hlinked.bulkTargets (Table.get?_mem hread) hrow
      (Table.get?_name hread)
    subst hsame
    have hopened : Opened db (childDocument E parent document childId key db)
        (childTarget R E parent document target childId db) document
        { document with childOperation := some childId } := {
      free := hopens.free, state := rfl, commandHash := rfl, resultHash := rfl
      target := ⟨rfl, rfl⟩, read := hread, kept := rfl
      child := fun name hname => ⟨(truthy_of_orNone hname).2 |> Option.some.inj |>.symm,
        heligible.planned⟩ }
    have hopen : Simulated R E.lifetime clockSkew db _ :=
      .other (otherStep_open hlinked hopened) (linked_open hlinked hopened.free hopened.target.1)
    obtain ⟨db₁, rfl, hbulk, hdispatched⟩ := simulated_enqueue clockSkew hopen.linked henqueue
    have hsaved : { document with childOperation := some childId } ∈ db₁.bulkTargets := by
      rw [hbulk]
      refine (Table.mem_update _ _).mpr ⟨document, hrow, if_pos rfl⟩
    have hqueued : Simulated R E.lifetime clockSkew db₁ _ :=
      .other (otherStep_setTargetState hdispatched.linked hsaved heligible.planned (.inl rfl))
      (linked_setTargetState hdispatched.linked _ _)
    exact ⟨_, rfl, (hopen.trans hdispatched).trans hqueued⟩

/-- A requested cancellation is an insertion and a dispatch. -/
theorem simulated_requestChildCancel (hlinked : Linked db)
    (h : requestChildCancel R E parentId target (synced db) = .ok u s') :
    ∃ db', s' = synced db' ∧ Simulated R E.lifetime clockSkew db db' := by
  obtain ⟨user, row, child, hcancellable, ⟨-, -, hagain⟩ | ⟨-, hstart⟩⟩ :=
    requestChildCancel_eq_ok h
  · exact ⟨db, hagain, .refl hlinked⟩
  · obtain ⟨document, revision, env, hopens, henqueue⟩ := startCancel_eq_ok hstart
    have hread : db.bulkTarget? row.name = some document := hopens.read
    have hopened : Opened db (cancelDocument R E user row child (cancellationId R parentId child))
        (cancelTargetDocument R E row target child (cancellationId R parentId child) revision)
        document
        { document with cancellationOperation := some (cancellationId R parentId child) } := {
      free := hopens.free, state := rfl, commandHash := rfl, resultHash := rfl
      target := ⟨rfl, rfl⟩, kept := rfl
      read := (congrArg db.bulkTarget? (Table.get?_name hread)).trans hread
      child := fun name hname => by cases hname }
    have hopen : Simulated R E.lifetime clockSkew db _ :=
      .other (otherStep_open hlinked hopened) (linked_open hlinked hopened.free hopened.target.1)
    obtain ⟨db', hs', hsame, hdispatched⟩ := simulated_enqueue clockSkew hopen.linked henqueue
    exact ⟨db', hs', hopen.trans hdispatched⟩

/-- The end of a target without a child is a step of another transaction. -/
theorem simulated_markUnstartedCancelled (hlinked : Linked db)
    (h : markUnstartedCancelled parentId target (synced db) = .ok u s') :
    ∃ db', s' = synced db' ∧ Simulated R E.lifetime clockSkew db db' := by
  obtain ⟨row, hfound, -, hplanned, rfl⟩ := markUnstartedCancelled_eq_ok h
  exact ⟨_, rfl, .other
    (otherStep_setTargetState hlinked (targetRow_eq_ok hfound).1 hplanned (.inr rfl))
    (linked_setTargetState hlinked _ _)⟩

/-- A write of bulk parents. -/
theorem simulated_setBulkOperation (hlinked : Linked db) (name : String)
    (f : BulkOperation → BulkOperation) :
    Simulated R E.lifetime clockSkew db (db.setBulkOperation name f) :=
  .other (otherStep_of_same hlinked.schema rfl rfl rfl)
    ⟨⟨hlinked.schema.names, hlinked.schema.ids, hlinked.schema.bulk⟩, hlinked.targets,
      hlinked.bulkTargets⟩

/-- Every write of a pass is made of such steps. -/
theorem simulated_write (hlinked : Linked db)
    (h : BulkOrchestrator.Write (repository R E) R parentId (synced db) s') :
    ∃ db', s' = synced db' ∧ Simulated R E.lifetime clockSkew db db' := by
  cases h with
  | create h => exact simulated_createChild clockSkew hlinked h
  | mark h => exact simulated_markUnstartedCancelled clockSkew hlinked h
  | cancel h => exact simulated_requestChildCancel clockSkew hlinked h

/-- The writes of a pass are made of such steps. -/
theorem simulated_writes (hlinked : Linked db)
    (h : Writes (repository R E) R parentId (synced db) s') :
    ∃ db', s' = synced db' ∧ Simulated R E.lifetime clockSkew db db' := by
  induction h with
  | refl => exact ⟨db, rfl, .refl hlinked⟩
  | tail _ hlast ih =>
    obtain ⟨db₁, rfl, hbefore⟩ := ih
    obtain ⟨db', hs', hafter⟩ := simulated_write clockSkew hbefore.linked hlast
    exact ⟨db', hs', hbefore.trans hafter⟩

/-! ## Passes -/

/-- A reconcile run is made of such steps. -/
theorem simulated_reconcile (hlinked : Linked db) {state : BulkState}
    (h : reconcile (repository R E) R parentId (synced db) = .ok state s') :
    ∃ db', s' = synced db' ∧ Simulated R E.lifetime clockSkew db db' := by
  obtain ⟨parent, targets, -, hadvance⟩ := reconcile_eq_ok h
  obtain ⟨-, -, rfl⟩ | ⟨-, exhausted, s₁, hwrites, hrecorded⟩ := advance_eq_ok hadvance
  · exact ⟨db, rfl, .refl hlinked⟩
  · obtain ⟨db₁, rfl, hbefore⟩ := simulated_writes clockSkew hlinked hwrites
    obtain ⟨targets', -, -, hupdate⟩ := hrecorded.recorded
    obtain ⟨row, previous, -, -, -, rfl⟩ := updateParent_eq_ok hupdate
    exact ⟨_, rfl, hbefore.trans (simulated_setBulkOperation clockSkew hbefore.linked _ _)⟩

/-- The run on a parent is made of such steps, an intervention too. -/
theorem simulated_reconcileParent (hlinked : Linked db)
    (h : reconcileParent R E parentId (synced db) = .ok u s') :
    ∃ db', s' = synced db' ∧ Simulated R E.lifetime clockSkew db db' := by
  unfold reconcileParent at h
  split at h
  · rename_i state s₁ hreconcile
    cases h
    exact simulated_reconcile clockSkew hlinked hreconcile
  · split at h
    · rw [FrappeInventory.write_eq_ok] at h
      exact ⟨_, h, simulated_setBulkOperation clockSkew hlinked _ _⟩
    · cases h

/-- The runs of a pass are made of such steps. -/
theorem simulated_forEach {names : List String} (hlinked : Linked db)
    (h : Transaction.forEach (reconcileParent R E) names (synced db) = .ok u s') :
    ∃ db', s' = synced db' ∧ Simulated R E.lifetime clockSkew db db' := by
  induction names generalizing db with
  | nil =>
    cases h
    exact ⟨db, rfl, .refl hlinked⟩
  | cons name rest ih =>
    obtain ⟨⟨⟩, s₁, hfirst, hrest⟩ := bind_apply_eq_ok.mp h
    obtain ⟨db₁, rfl, hbefore⟩ := simulated_reconcileParent clockSkew hlinked hfirst
    obtain ⟨db', hs', hafter⟩ := ih hbefore.linked hrest
    exact ⟨db', hs', hbefore.trans hafter⟩

/-- A pass, whether it returns or raises, is a run of the lifecycle's steps: dispatches and steps
of other transactions. -/
theorem pass_simulated (hlinked : Linked db) :
    Simulated R E.lifetime clockSkew db (pass R E db db).2 := by
  unfold pass
  split
  · rename_i session hpass
    obtain ⟨names, s₁, hread, hloop⟩ := bind_apply_eq_ok.mp hpass
    obtain ⟨-, rfl⟩ := FrappeInventory.read_eq_ok.mp hread
    obtain ⟨db', rfl, hsimulated⟩ := simulated_forEach clockSkew hlinked hloop
    exact hsimulated
  · exact .refl hlinked

end Writes

/-! ## Runs of the whole system -/

section System

variable {R : Runtime} {lifetime clockSkew : ℕ} {history : List Database} {l : Label}
variable {db db' : Database} {older older' : List Database}

/-- Moving an operation on keeps the rows linked. -/
theorem linked_advance (hlinked : Linked db) {name : String} {bulkTarget : Option String}
    {f : ControllerOperation → ControllerOperation} {g : OperationTarget → OperationTarget}
    {h : BulkOperationTarget → BulkOperationTarget} (hkeys : KeepsKeys f g h) :
    Linked (db.advance name bulkTarget f g h) where
  schema := schema_advance hlinked.schema hkeys
  targets := by
    intro t' ht'
    obtain ⟨t, ht, rfl⟩ := mem_operationTargets_advance.mp ht'
    obtain ⟨op, hop, hname⟩ := hlinked.targets t ht
    refine ⟨_, mem_operations_advance.mpr ⟨op, hop, rfl⟩, ?_⟩
    have hkept : (if op.name = name then f op else op).name = op.name := by
      split
      · exact (hkeys.operation op).1
      · rfl
    rw [hkept, hname]
    split
    · exact (hkeys.target t).2.symm
    · rfl
  bulkTargets := by
    cases bulkTarget with
    | none => exact hlinked.bulkTargets
    | some name => exact (Table.unique_update hkeys.bulkTarget).mpr hlinked.bulkTargets

/-- A step of the lifecycle keeps the rows linked. -/
theorem linked_writes (hlinked : Linked db)
    (h : Lifecycle.Writes R lifetime clockSkew history l db db') : Linked db' := by
  induction h with
  | refl => exact hlinked
  | step _ hwrite ih =>
    cases hwrite <;>
      exact linked_advance ih ⟨fun _ => ⟨rfl, rfl, rfl⟩, fun _ => ⟨rfl, rfl⟩, fun _ => rfl⟩

/-- Events keep the rows linked. -/
theorem linked_eventsOnly (hlinked : Linked db) (h : EventsOnly db db') : Linked db' where
  schema := (h.other hlinked.schema).schema
  targets := by
    intro t ht
    rw [h.operationTargets] at ht
    obtain ⟨op, hop, hname⟩ := hlinked.targets t ht
    obtain ⟨op', hop', hsame⟩ := h.sameRow hop
    exact ⟨op', hop', hsame.name.trans hname⟩
  bulkTargets := by
    rw [h.bulkTargets]
    exact hlinked.bulkTargets

/-- What a step does: writes on the newest version, an event batch, or another transaction. -/
theorem step_effect (h : Step R lifetime clockSkew (db :: older) l (db' :: db :: older)) :
    Lifecycle.Writes R lifetime clockSkew (db :: older) l db db' ∨ EventsOnly db db' ∨
      (l = .other ∧ OtherStep db db') := by
  have hnone : Lifecycle.Writes R lifetime clockSkew (db :: older) l db db := .refl
  cases h with
  | dispatch =>
    left
    unfold Transaction.committed
    split
    · rename_i hok
      exact dispatch_writes hok
    · exact hnone
  | lease =>
    left
    unfold Transaction.committed
    split
    · rename_i hok
      exact lease_writes hok
    · exact hnone
  | result hviews =>
    left
    unfold serveResult serve
    split
    · rename_i hok
      exact result_writes hviews hok
    · exact hnone
  | events hviews =>
    right
    left
    unfold serveEvents serve
    split
    · rename_i hok
      exact ingestEvents_eventsOnly hok
    · exact .refl db
  | other h => exact .inr (.inr ⟨rfl, h⟩)

/-- A step may follow any history that has the versions it read. -/
theorem step_mono (h : Step R lifetime clockSkew (db :: older) l (db' :: db :: older))
    (hsub : ∀ v ∈ db :: older, v ∈ db :: older') :
    Step R lifetime clockSkew (db :: older') l (db' :: db :: older') := by
  have hviews : ∀ views : List Database, (∀ view ∈ views, view ∈ db :: older) →
      ∀ view ∈ views, view ∈ db :: older' := fun views hviews view hview =>
    hsub view (hviews view hview)
  cases h with
  | dispatch => exact .dispatch
  | lease => exact .lease
  | events h => exact .events (hviews _ h)
  | result h => exact .result (hviews _ h)
  | other h => exact .other h

/-- A run forgets no version. -/
theorem versions_kept {versions versions' : List Database} {labels : List Label}
    (hrun : Run (Step R lifetime clockSkew) versions labels versions') :
    ∀ v ∈ versions, v ∈ versions' := by
  induction hrun with
  | nil => exact fun v hv => hv
  | snoc _ hlast ih =>
    intro v hv
    have hbefore := ih v hv
    cases hlast <;> exact List.mem_cons_of_mem _ hbefore

end System

/-- What is committed: a step of the lifecycle, or a whole pass of the scheduler. -/
inductive SystemLabel where
  | step (l : Label)
  | pass

/-- One commit of the system. The other transactions keep the rows linked. -/
inductive SystemStep (R : Runtime) (E : Environment) (clockSkew : ℕ) :
    List Database → SystemLabel → List Database → Prop
  | step {db db' : Database} {older : List Database} {l : Label}
      (h : Step R E.lifetime clockSkew (db :: older) l (db' :: db :: older))
      (hother : l = .other → Linked db') :
      SystemStep R E clockSkew (db :: older) (.step l) (db' :: db :: older)
  | pass {db : Database} {older : List Database} :
      SystemStep R E clockSkew (db :: older) .pass ((pass R E db db).2 :: db :: older)

section Runs

variable {R : Runtime} {E : Environment} {clockSkew : ℕ}

/-- Every step keeps the rows linked. -/
theorem linked_step {db db' : Database} {older : List Database} {l : Label} (hlinked : Linked db)
    (h : Step R E.lifetime clockSkew (db :: older) l (db' :: db :: older))
    (hother : l = .other → Linked db') : Linked db' := by
  rcases step_effect h with hwrites | hevents | ⟨hl, -⟩
  · exact linked_writes hlinked hwrites
  · exact linked_eventsOnly hlinked hevents
  · exact hother hl

/-- A run of the lifecycle that reaches the same newest version through the same versions. -/
structure Matched (R : Runtime) (E : Environment) (clockSkew : ℕ) (start : List Database)
    (labels : List SystemLabel) (versions : List Database) : Prop where
  linked : ∀ db ∈ versions.head?, Linked db
  run : ∃ labels' versions', Run (Step R E.lifetime clockSkew) start labels' versions' ∧
    versions'.head? = versions.head? ∧ (∀ v ∈ versions, v ∈ versions') ∧
    ∀ l ∈ labels', Scheduled l ∨ .step l ∈ labels

/-- Every run of requests, leases, dispatches and scheduler passes, in any order, is a run of the
lifecycle's steps: it reaches the same version, and passes through every version the system did. -/
theorem system_simulated {start : Database} {labels : List SystemLabel} {versions : List Database}
    (hlinked : Linked start) (hrun : Run (SystemStep R E clockSkew) [start] labels versions) :
    Matched R E clockSkew [start] labels versions := by
  induction hrun with
  | nil =>
    refine ⟨fun db hdb => ?_, [], [start], .nil _, rfl, fun v hv => hv, fun l hl => ?_⟩
    · cases hdb
      exact hlinked
    · exact absurd hl List.not_mem_nil
  | @snoc versions versions'' labels last hpre hlast ih =>
    obtain ⟨hhead, labels', versions', hrun, hsame, hsub, hlabels⟩ := ih
    have hold : ∀ l ∈ labels', Scheduled l ∨ SystemLabel.step l ∈ labels ++ [last] :=
      fun l hl => (hlabels l hl).imp id (List.mem_append_left _)
    cases hlast with
    | @step db db' older l h hother =>
      -- the matched run is at the same version, with more history behind it
      obtain ⟨rest, rfl⟩ := List.head?_eq_some_iff.mp hsame
      have hstep : Step R E.lifetime clockSkew (db :: rest) l (db' :: db :: rest) :=
        step_mono h hsub
      refine ⟨fun v hv => ?_, labels' ++ [l], _, hrun.snoc hstep, rfl, fun v hv => ?_,
        fun l' hl' => ?_⟩
      · cases hv
        exact linked_step (hhead db rfl) h hother
      · rcases List.mem_cons.mp hv with rfl | hv
        · exact List.mem_cons_self
        · exact List.mem_cons_of_mem _ (hsub v hv)
      · rcases List.mem_append.mp hl' with hl' | hl'
        · exact hold l' hl'
        · rw [List.mem_singleton.mp hl']
          exact .inr (List.mem_append_right _ (List.mem_singleton_self _))
    | @pass db older =>
      obtain ⟨rest, rfl⟩ := List.head?_eq_some_iff.mp hsame
      have hpass := pass_simulated (R := R) (E := E) clockSkew (hhead db rfl)
      obtain ⟨labels'', versions'', hrun', hscheduled⟩ := hpass.run rest
      refine ⟨fun v hv => ?_, labels' ++ labels'', _, hrun.append hrun', rfl, fun v hv => ?_,
        fun l' hl' => ?_⟩
      · cases hv
        exact hpass.linked
      · rcases List.mem_cons.mp hv with rfl | hv
        · exact List.mem_cons_self
        · exact versions_kept hrun' v (hsub v hv)
      · rcases List.mem_append.mp hl' with hl' | hl'
        · exact hold l' hl'
        · exact .inl (hscheduled l' hl')

end Runs

/-! ## A sample parent

An approved migration of the sample site, of which no child was created yet. -/

namespace Sample

open Dispatcher.Sample (emptyDigest agent bench site policy now)

def parentId : String := "0b9d1c52-7a34-4c61-8e5f-21d7c3a9b402"

/-- The namespace of the parent's children. -/
def scope : String := "d591775c-4d78-5039-8bfa-d33317e9789e"

def childId : String := "ad13d2ac-7fb5-52fc-806f-e9d40935d6b1"

def targetKey : String := "7:agent-1|7:bench-1|6:site-1"

def planDigest : String := "4afef383a1ee082cb6ae1146a915359041f37a7735c49b3b84672d494bf5d025"

def selector : Json :=
  .obj [("agent_ids", .arr []), ("bench_ids", .arr []), ("environment", .null),
    ("exact_site_ids", .arr [.str "site-1"]), ("labels", .arr [])]

def counts : Json := .obj [("production", .int 1)]

/-- The canonical document of the parent's plan. -/
def plan : Json :=
  .obj [("version", .int 1), ("parent_operation_id", .str parentId),
    ("operation_type", .str "site.migrate"), ("payload_hash", .str emptyDigest),
    ("dry_run_hash", .str emptyDigest), ("retry_of", .null), ("selector", selector),
    ("targets", .arr [.obj [("ordinal", .int 0), ("agent_id", .str "agent-1"),
      ("bench_id", .str "bench-1"), ("site_id", .str "site-1"), ("site_domain", .str "one.example"),
      ("environment", .str "production"), ("inventory_revision", .str emptyDigest)]]),
    ("policy", .obj [("maximum_targets", .int 10), ("canary_size", .int 1),
      ("global_concurrency", .int 2), ("per_agent_concurrency", .int 1),
      ("per_bench_concurrency", .int 1), ("maximum_failures", .int 0),
      ("maximum_failure_ratio", .float (.finite (1 / 2)))])]

/-- The identity the child's target key is the digest of. -/
def identity : Json :=
  .arr [.str childId, .str "agent-1", .str "bench-1", .str "site-1", .str emptyDigest]

/-- The runtime that encodes the documents above. -/
def encoder : Runtime :=
  { Dispatcher.Sample.runtime [] [] with floatRepr := fun q => if q = 1 / 2 then "0.5" else "" }

def selectorText : Text := encoder.dumps selector

def countsText : Text := encoder.dumps counts

/-- A runtime that knows the digests and the ids of the documents above, and gives every other text
the digest of the child's command. -/
def runtime : Runtime :=
  { encoder with
    sha256 := fun text =>
      if text = ['{', '}'] then emptyDigest
      else if text = selectorText then
        "bb43d1b42a418d50d43f6db73a695ece0d6ba40679f95f04ec9f20fdc4a882bb"
      else if text = encoder.dumps plan then planDigest
      else if text = encoder.dumps identity then
        "b6b6160425b778c2861d84c8411331d90ef954aff0ac0c8d251b24a074c6b182"
      else "ab1ce939b398e0d795ae8341bba784fbeceb64529870ce9dc02e48bd2b48d195"
    loads := fun text =>
      [(['{', '}'], .obj []), (selectorText, selector), (countsText, counts)].lookup text
    uuid5 := fun space name =>
      if space = namespaceUrl ∧ name = "frappe-controller:bulk:" ++ parentId then scope
      else if space = scope ∧ name = targetKey ++ ":0" then childId
      else "" }

def parent : BulkOperation where
  name := parentId
  bulkOperationId := parentId
  retryOf := none
  idempotencyKey := "bulk-parent:" ++ parentId
  operationType := "site.migrate"
  payloadJson := ['{', '}']
  payloadHash := emptyDigest
  selectorJson := selectorText
  selectorHash := "bb43d1b42a418d50d43f6db73a695ece0d6ba40679f95f04ec9f20fdc4a882bb"
  snapshotHash := planDigest
  dryRunHash := emptyDigest
  environmentCountsJson := countsText
  requestedBy := "operator@example.com"
  approvalPolicy := "two-approvers"
  approvalStatus := .approved
  requiredApprovals := 2
  approvalCount := 2
  maximumTargets := 10
  canarySize := 1
  globalConcurrency := 2
  perAgentConcurrency := 1
  perBenchConcurrency := 1
  maximumFailures := 0
  maximumFailureRatio := 1 / 2
  state := .approved
  totalTargets := 1
  plannedCount := 1
  queuedCount := 0
  runningCount := 0
  succeededCount := 0
  failedCount := 0
  cancelledCount := 0
  needsInterventionCount := 0
  pauseRequested := false
  pauseRequestedBy := none
  pauseRequestedAt := none
  cancelRequested := false
  cancelRequestedBy := none
  cancelRequestedAt := none
  requestedAt := now
  previewedAt := now
  approvedAt := some now
  startedAt := none
  completedAt := none
  creation := now

def target : BulkOperationTarget where
  name := "bulk-target-1"
  bulkOperation := parentId
  targetKey := targetKey
  ordinal := 0
  wave := 0
  attempt := 0
  serverAgent := "agent-1"
  bench := "bench-1"
  managedSite := "site-1"
  agentIdSnapshot := "agent-1"
  benchIdSnapshot := "bench-1"
  siteIdSnapshot := "site-1"
  siteDomainSnapshot := "one.example"
  environmentSnapshot := "production"
  inventoryRevision := emptyDigest
  previewOperation := none
  previewResultHash := none
  retrySource := none
  retryOf := none
  state := .planned
  childOperation := none
  cancellationOperation := none
  resultJson := none
  errorCode := none
  startedAt := none
  completedAt := none

def approval (name approver : String) : BulkOperationApproval where
  name := name
  bulkOperation := parentId
  approvalPolicy := "two-approvers"
  decision := .approved
  approver := approver
  decidedAt := now
  comment := ""
  snapshotHash := planDigest
  payloadHash := emptyDigest
  dryRunHash := emptyDigest
  decisionHash := emptyDigest

def database : Database :=
  { Dispatcher.Sample.database with
    operations := []
    operationTargets := []
    operationApprovals := []
    bulkOperations := [parent]
    bulkTargets := [target]
    bulkApprovals :=
      [approval "bulk-approval-1" "alice@example.com", approval "bulk-approval-2" "bob@example.com"]
    featureConfig := { masterEnabled := true, features := [("bulk_operations", ["production"])] } }

def environment : Environment where
  lifetime := 300
  clock _ := now
  targetName operation := "target of " ++ operation

/-- A pass queues the child. -/
theorem started : ∃ op ∈ (pass runtime environment database database).2.operations,
    op.state = .queued ∧ op.name = childId := by
  decide +kernel

/-- The rows of the sample are linked. -/
theorem linked_database : Linked database :=
  ⟨⟨by decide, by decide, fun _ hop => absurd hop List.not_mem_nil⟩,
    fun _ ht => absurd ht List.not_mem_nil, by decide⟩

end Sample

open FrappeBulk.Sample in
/-- A pass over the sample starts its child. -/
theorem system_simulated_sample :
    (∃ op ∈ (pass runtime environment database database).2.operations,
      op.state = .queued ∧ op.name = childId) ∧
    Matched runtime environment 60 [database] [.pass]
      [(pass runtime environment database database).2, database] :=
  ⟨started, system_simulated linked_database (Run.single .pass)⟩

end FrappeBulk
end FrappeController
