import FrappeController.BulkProgress
import FrappeController.ServerAgentTheorems

/-!
# A parent no pass gets beyond

A run that finds every target of its parent finished gives the parent the state that follows from
them, and saves it. The document allows a paused parent no end but `cancelled`, and a cancelling
one no `succeeded`: the save is refused with an exception the loop does not handle, so the whole
pass is rolled back, whatever the other parents are waiting for (`pass_blocked`).
-/

namespace FrappeController

/-! ## The exceptions of the documents -/

namespace BulkDocuments

open FrappeInventory (Session read readForUpdate write)
open Transaction (Triple)

variable {R : Runtime}

/-- An exception the loop over the parents does not handle. -/
abbrev Unhandled (e : Exc) : Prop := e.isBulkOrchestrationError = false

/-- An optional check raises what the check raises. -/
theorem raises_ifSome {α : Type} {value : Option α} {check : α → Except Exc Unit}
    (h : ∀ a, Raises Unhandled (check a)) : Raises Unhandled (ifSome value check) := by
  cases value with
  | none => exact .ok ()
  | some a => exact h a

/-- Malformed JSON is a validation error, which the loop does not handle. -/
theorem raises_requireJson (value : Option Text) (field : String) :
    Raises Unhandled (requireJson R value field) := by
  unfold requireJson
  split
  · exact .error rfl
  · exact .ok _
  · exact .error rfl

/-- A malformed digest is a validation error. -/
theorem raises_requireSha256 (value : Option String) (field : String) :
    Raises Unhandled (requireSha256 value field) := by
  unfold requireSha256
  split
  · exact .ok ()
  · exact .error rfl

/-- A failed encoding is not handled either. -/
theorem raises_encode (value : Json) : Raises Unhandled (encode R value) := by
  unfold encode
  split
  · exact .ok _
  · exact .error rfl

/-- A changed immutable column is a validation error. -/
theorem raises_immutableField {α : Type} [DecidableEq α] (previous current : α) (field : String) :
    Raises Unhandled (immutableField previous current field) := by
  unfold immutableField
  split
  · exact .ok ()
  · exact .error rfl

section BulkOperation

variable (op : BulkOperation)

/-- A malformed identity is a validation error. -/
theorem raises_validateIdentity : Raises Unhandled (validateIdentity R op) := by
  unfold validateIdentity
  split
  · exact .error rfl
  · exact .bind (.ensure rfl) fun _ _ => .ensure rfl

/-- Malformed columns are a validation error. -/
theorem raises_validateJsonColumns : Raises Unhandled (validateJsonColumns R op) := by
  refine .bind (raises_requireJson _ _) fun _ _ => ?_
  refine .bind (raises_requireJson _ _) fun _ _ => ?_
  refine .bind (raises_requireJson _ _) fun _ _ => ?_
  refine .bind (raises_requireSha256 _ _) fun _ _ => ?_
  refine .bind (raises_requireSha256 _ _) fun _ _ => ?_
  refine .bind (raises_requireSha256 _ _) fun _ _ => ?_
  refine .bind (raises_requireSha256 _ _) fun _ _ => ?_
  refine .bind (raises_encode _) fun _ _ => .bind (.ensure rfl) fun _ _ => ?_
  exact .bind (raises_encode _) fun _ _ => .bind (.ensure rfl) fun _ _ => .ok _

/-- Malformed counts are a validation error. -/
theorem raises_environmentCounts (fields : List (String × Json)) :
    Raises Unhandled (environmentCounts fields) := by
  refine .bind (.ensure rfl) fun _ _ => ?_
  split
  · exact .error rfl
  · exact .ok _

/-- A malformed policy is a validation error. -/
theorem raises_validatePolicyColumns (counts : List (String × ℤ)) :
    Raises Unhandled (validatePolicyColumns op counts) := by
  unfold validatePolicyColumns bounded
  repeat' refine .bind (.ensure rfl) fun _ _ => ?_
  exact .ensure rfl

/-- Progress that does not add up is a validation error. -/
theorem raises_validateProgress : Raises Unhandled (validateProgress op) := by
  unfold validateProgress
  repeat' refine .bind (.ensure rfl) fun _ _ => ?_
  exact .ensure rfl

/-- A change of what is immutable is a validation error. -/
theorem raises_validatePrevious (previous : BulkOperation) :
    Raises Unhandled (validatePrevious op previous) := by
  unfold validatePrevious
  repeat' refine .bind (raises_immutableField _ _ _) fun _ _ => ?_
  unfold legalTransition
  split
  · exact .ok ()
  · exact .error rfl

/-- Whatever `validate` raises, the loop does not handle it. -/
theorem raises_validate (previous : Option BulkOperation) (db : Database) :
    Raises Unhandled (validate R op previous db) := by
  refine .bind (raises_validateIdentity op) fun _ _ => ?_
  refine .bind (raises_ifSome fun _ => .ensure rfl) fun _ _ => ?_
  refine .bind (raises_validateJsonColumns op) fun _ _ => ?_
  refine .bind (raises_environmentCounts _) fun counts _ => ?_
  refine .bind (raises_validatePolicyColumns op counts) fun _ _ => ?_
  refine .bind (raises_validateProgress op) fun _ _ => ?_
  refine .bind (raises_ifSome fun _ => .ensure rfl) fun _ _ => ?_
  refine .bind (.ensure rfl) fun _ _ => ?_
  exact raises_ifSome (raises_validatePrevious op)

end BulkOperation

/-- The state a saved document had before leads to the state it has. -/
theorem validate_transition {op previous : BulkOperation} {db : Database}
    (h : validate R op (some previous) db = .ok ()) :
    previous.state = op.state ∨ op.state ∈ BulkState.transitions previous.state := by
  -- the transition is the last of the checks
  repeat obtain ⟨_, -, h⟩ := Transaction.bind_eq_ok.mp h
  have htransition : legalTransition BulkState.transitions .illegalBulkTransition previous.state
      op.state = .ok () := h
  unfold legalTransition at htransition
  split at htransition
  · rename_i hlegal
    exact hlegal
  · cases htransition

/-- Whatever a save raises, the loop does not handle it. -/
theorem saveBulkOperation_raises (op : BulkOperation) :
    Triple (fun _ => True) (saveBulkOperation R op) (fun _ _ => True) fun e _ => Unhandled e := by
  refine Triple.bind (Triple.query (fun _ _ _ _ => trivial) fun s e _ he => ?_) fun _ => ?_
  · dsimp only at he
    split at he
    · cases he
      rfl
    · cases he
  · refine Triple.bind (Triple.query (fun _ _ _ _ => trivial) fun s e _ he => ?_) fun _ => ?_
    · exact raises_validate op _ _ e he
    · exact Triple.modify fun _ _ => trivial

end BulkDocuments

/-! ## Runs on finished targets -/

namespace BulkOrchestrator

open Transaction (forEach bind_apply query_ok)
open Bulk

variable {σ : Type} {repository : BulkRepository σ} {R : Runtime} {parentId : String} {s : σ}
variable {targets : List BulkTargetRuntime}

/-- A finished target is not planned. -/
theorem not_planned {target : BulkTargetRuntime} (h : target.state.terminal = true) :
    target.state ≠ .planned := by
  intro hplanned
  rw [hplanned] at h
  cases h

/-- Cancelling finished targets writes nothing. -/
theorem cancelTargets_finished (h : allTerminal targets = true) :
    forEach (cancelTarget repository parentId) targets s = .ok () s := by
  induction targets with
  | nil => rfl
  | cons target rest ih =>
    have hterminal : target.state.terminal = true ∧ allTerminal rest = true := by
      simpa [allTerminal] using h
    have hnone : cancelTarget repository parentId target = pure () := by
      unfold cancelTarget
      rw [if_neg (not_planned hterminal.1), hterminal.1]
      rfl
    show (cancelTarget repository parentId target >>= fun _ =>
      forEach (cancelTarget repository parentId) rest) s = _
    rw [hnone]
    exact ih hterminal.2

/-- Starting finished targets writes nothing. -/
theorem startTargets_finished {policy : BulkExecutionPolicy} {counts : InflightCounts}
    (h : allTerminal targets = true) :
    startTargets repository R policy parentId targets counts s = .ok () s := by
  induction targets with
  | nil => rfl
  | cons target rest ih =>
    have hterminal : target.state.terminal = true ∧ allTerminal rest = true := by
      simpa [allTerminal] using h
    unfold startTargets
    rw [if_pos (not_planned hterminal.1)]
    exact ih hterminal.2

/-- All finished targets count as eligible. -/
theorem eligible_finished (policy : BulkExecutionPolicy) (h : allTerminal targets = true) :
    eligible policy targets = targets := by
  have hcanaries : allTerminal (canaries policy targets) = true :=
    List.all_eq_true.mpr fun t ht => List.all_eq_true.mp h t (List.mem_of_mem_take ht)
  exact if_pos hcanaries

/-- A run that finds all targets finished records that, whatever else it read. -/
theorem advance_finished {parent : BulkParentRuntime} {counts : InflightCounts}
    (hopen : settled parent.state = false) (h : allTerminal targets = true)
    (hcounts : repository.inflightCounts s = .ok counts)
    (htargets : repository.targets parentId s = .ok targets) :
    ∃ active, advance repository R parent parentId targets s
      = update repository parentId active s := by
  unfold advance
  rw [if_neg (Bool.eq_false_iff.mp hopen)]
  split
  · refine ⟨.cancelling, ?_⟩
    rw [bind_apply, cancelTargets_finished h]
  · split
    · exact ⟨.paused, rfl⟩
    · split
      · exact ⟨.paused, rfl⟩
      · unfold fanOut
        rw [eligible_finished _ h, bind_apply, query_ok hcounts]
        dsimp only
        rw [bind_apply, startTargets_finished h]
        dsimp only
        rw [bind_apply, query_ok htargets]
        dsimp only
        split
        · exact ⟨.paused, rfl⟩
        · exact ⟨_, rfl⟩

end BulkOrchestrator

/-! ## Passes -/

namespace FrappeBulk

open FrappeInventory (Session)
open Lifecycle Bulk BulkOrchestrator BulkDocuments
open Transaction (bind_eq_ok bind_apply_eq_ok)

/-- A paused or cancelling parent whose targets have all finished, and whose state does not lead to
the one that follows from them. -/
structure Stuck (R : Runtime) (parentId : String) (db : Database) : Prop where
  finished : ∃ row parent ts, db.bulkOperation? parentId = some row ∧
    parentRuntime R db parentId = .ok parent ∧ targets db parentId = .ok ts ∧
    ts.map (·.snapshot) = parent.plan.targets ∧ allTerminal ts = true ∧
    ((row.state = .paused ∧ ∃ t ∈ ts, t.state ≠ .child .cancelled) ∨
      (row.state = .cancelling ∧ ∀ t ∈ ts, t.state = .child .succeeded))

section Stuck

variable {R : Runtime} {E : Environment} {db db' : Database} {parentId : String} {s' : Session}
variable {u : Unit} {ts : List BulkTargetRuntime}

/-- Paused leads to no final state of targets that did not all end cancelled. -/
theorem finalState_paused {active : BulkState} (hall : allTerminal ts = true)
    (hother : ∃ t ∈ ts, t.state ≠ .child .cancelled) :
    ¬ (BulkState.paused = finalState ts active ∨
      finalState ts active ∈ BulkState.transitions .paused) := by
  obtain ⟨t, ht, hstate⟩ := hother
  have hcancelled : (aggregateChildStates (states ts)).cancelled
      ≠ (aggregateChildStates (states ts)).total := by
    intro hcount
    have heach := List.countP_eq_length.mp hcount t.state (List.mem_map_of_mem ht)
    have hbucket : ∀ state : BulkTargetState, bucket state = .cancelled →
        state = .child .cancelled := by
      intro state
      rcases state with _ | state
      · intro h
        cases h
      · cases state <;> intro h <;> first | rfl | cases h
    exact hstate (hbucket t.state (by simpa using heach))
  unfold finalState
  rw [if_pos hall, if_neg hcancelled]
  split <;> decide

/-- Cancelling does not lead to the final state of targets that all succeeded. -/
theorem finalState_cancelling {active : BulkState} (hall : allTerminal ts = true)
    (hsucceeded : ∀ t ∈ ts, t.state = .child .succeeded) :
    ¬ (BulkState.cancelling = finalState ts active ∨
      finalState ts active ∈ BulkState.transitions .cancelling) := by
  have hcount : (aggregateChildStates (states ts)).succeeded
      = (aggregateChildStates (states ts)).total := by
    refine List.countP_eq_length.mpr fun state hstate => ?_
    obtain ⟨t, ht, rfl⟩ := List.mem_map.mp hstate
    rw [hsucceeded t ht]
    rfl
  unfold finalState
  rw [if_pos hall, if_pos hcount]
  decide

/-- What makes a parent stuck is read from its own rows. -/
theorem Stuck.of_kept (h : Stuck R parentId db) (hkept : Kept parentId db db') :
    Stuck R parentId db' := by
  obtain ⟨row, parent, ts, hrow, hparent, hts, hrest⟩ := h.finished
  have hsame : targets db' parentId = targets db parentId := targets_of_filter hkept.targets
  have hname : row.name = parentId := Table.get?_name hrow
  have hplan : ∀ fields, parentPlan db' row fields = parentPlan db row fields := by
    intro fields
    unfold parentPlan
    rw [hname, hsame]
  have hruntime : parentRuntime R db' parentId = parentRuntime R db parentId := by
    unfold parentRuntime parentRow
    rw [hkept.row, hrow]
    refine congrArg (selectorValue R row >>= ·) (funext fun fields => ?_)
    rw [hplan]
  exact ⟨row, parent, ts, hkept.row.trans hrow, hruntime.trans hparent, hsame.trans hts, hrest⟩

/-- The update of a parent comes down to the save of its row. -/
theorem updateParent_of_row {row : BulkOperation} {state : BulkState} {aggregate : BulkAggregate}
    (hrow : db.bulkOperation? parentId = some row) :
    updateParent R E parentId state aggregate (synced db)
      = saveBulkOperation R (recordProgress (E.clock parentId) state aggregate row) (synced db) := by
  have hread : FrappeInventory.read (bulkOperationDocument parentId) (synced db)
      = .ok row (synced db) :=
    FrappeInventory.read_eq_ok.mpr ⟨bulkOperationDocument_eq_ok.mpr hrow, rfl⟩
  unfold updateParent
  rw [Transaction.bind_apply, hread]

/-- The run on a stuck parent comes to the save of its row. -/
theorem reconcile_stuck (h : Stuck R parentId db) :
    ∃ row state aggregate, db.bulkOperation? parentId = some row ∧
      ¬ (row.state = state ∨ state ∈ BulkState.transitions row.state) ∧
      reconcile (repository R E) R parentId (synced db)
        = (saveBulkOperation R (recordProgress (E.clock parentId) state aggregate row) >>= fun _ =>
          pure state) (synced db) := by
  obtain ⟨row, parent, ts, hrow, hparent, hts, hplan, hall, hillegal⟩ := h.finished
  obtain ⟨row', hrow', hruns⟩ := parentRuntime_eq_ok hparent
  have hsame : row' = row := Option.some.inj (hrow'.symm.trans hrow)
  have hstate : parent.state = row.state := hsame ▸ hruns.state
  -- a paused or cancelling parent is not settled, so the run goes on
  have hopen : settled parent.state = false := by
    rw [hstate]
    rcases hillegal with ⟨hpaused, -⟩ | ⟨hcancelling, -⟩
    · rw [hpaused]
      rfl
    · rw [hcancelling]
      rfl
  -- its targets are as planned, so they are read
  have hread : readParent (repository R E) parentId (synced db) = .ok (parent, ts) := by
    have hlock : lockParent R parentId (synced db) = .ok parent :=
      bind_eq_ok.mpr ⟨row, by rw [parentRow, show (synced db).current = db from rfl, hrow], hparent⟩
    have hcount : ts.length = parent.plan.targets.length := by rw [← hplan, List.length_map]
    have hchecked : checkTargets parent ts = .ok () :=
      bind_eq_ok.mpr ⟨(), ensure_eq_ok.mpr (beq_iff_eq.mpr hcount),
        ensure_eq_ok.mpr (beq_iff_eq.mpr hplan)⟩
    exact bind_eq_ok.mpr ⟨parent, hlock, bind_eq_ok.mpr ⟨ts, hts,
      bind_eq_ok.mpr ⟨(), hchecked, rfl⟩⟩⟩
  have hcounts : (repository R E).inflightCounts (synced db) = .ok (inflightCounts db) := rfl
  have htargets : (repository R E).targets parentId (synced db) = .ok ts := hts
  -- all of them have finished, so nothing is started or cancelled
  obtain ⟨active, hadvance⟩ := advance_finished (R := R) hopen hall hcounts htargets
  refine ⟨row, finalState ts active, aggregateChildStates (states ts), hrow, ?_, ?_⟩
  · rcases hillegal with ⟨hpaused, hother⟩ | ⟨hcancelling, hsucceeded⟩
    · rw [hpaused]
      exact finalState_paused hall hother
    · rw [hcancelling]
      exact finalState_cancelling hall hsucceeded
  · show (Transaction.query (readParent (repository R E) parentId) >>= fun read =>
      advance (repository R E) R read.1 parentId read.2) (synced db) = _
    rw [Transaction.bind_apply, Transaction.query_ok hread]
    dsimp only
    rw [hadvance]
    have hupdate : (repository R E).updateParent parentId (finalState ts active)
        (aggregateChildStates (states ts)) (synced db) = saveBulkOperation R (recordProgress
          (E.clock parentId) (finalState ts active) (aggregateChildStates (states ts)) row)
            (synced db) := updateParent_of_row hrow
    unfold update
    rw [Transaction.bind_apply, Transaction.query_ok htargets]
    dsimp only
    rw [Transaction.bind_apply, Transaction.bind_apply, hupdate]

/-- The run on a stuck parent raises, and the loop does not handle what it raises. -/
theorem reconcileParent_stuck (h : Stuck R parentId db) :
    reconcileParent R E parentId (synced db) ≠ .ok u s' := by
  obtain ⟨row, state, aggregate, hrow, hillegal, hrun⟩ := reconcile_stuck (E := E) h
  have hname : row.name = parentId := Table.get?_name hrow
  intro hok
  unfold reconcileParent at hok
  rw [hrun, Transaction.bind_apply] at hok
  cases hsave : saveBulkOperation R (recordProgress (E.clock parentId) state aggregate row)
      (synced db) with
  | ok u s₁ =>
    obtain ⟨previous, hprevious, hvalid, -⟩ := saveBulkOperation_eq_ok hsave
    have hfound : db.bulkOperation? parentId = some previous := hname ▸ hprevious
    have hsame : previous = row := Option.some.inj (hfound.symm.trans hrow)
    exact hillegal (hsame ▸ validate_transition hvalid)
  | error e s₁ =>
    have hunhandled := (saveBulkOperation_raises _).error trivial hsave
    rw [hsave] at hok
    dsimp only at hok
    rw [if_neg (Bool.eq_false_iff.mp hunhandled)] at hok
    cases hok

/-- The loop gets to the stuck parent or raises before, and does not get beyond it. -/
theorem forEach_stuck {names : List String} (hready : Ready db) (hnames : names.Nodup)
    (hrows : ∀ p ∈ names, ∃ row, db.bulkOperation? p = some row ∧
      reconcilable row.state = true) (hparent : parentId ∈ names) (h : Stuck R parentId db) :
    Transaction.forEach (reconcileParent R E) names (synced db) ≠ .ok u s' := by
  intro hloop
  induction names generalizing db with
  | nil => cases hparent
  | cons name rest ih =>
    rw [List.nodup_cons] at hnames
    rw [List.forall_mem_cons] at hrows
    obtain ⟨⟨⟩, s₁, hfirst, hrest⟩ := bind_apply_eq_ok.mp hloop
    by_cases hturn : parentId = name
    · subst hturn
      exact reconcileParent_stuck h hfirst
    · obtain ⟨row, hrow, hstate⟩ := hrows.1
      let limits : Limits := ⟨(policyFields row).globalConcurrency,
        (policyFields row).perAgentConcurrency, (policyFields row).perBenchConcurrency⟩
      have hallows : Allows limits (policyFields row) := ⟨le_rfl, le_rfl, le_rfl⟩
      obtain ⟨db₁, rfl, hadvanced, -⟩ :=
        reconcileParent_advanced hready hrow hstate hallows hfirst
      have hkept := hadvanced.frame.kept
      have hrows₁ : ∀ p ∈ rest, ∃ row, db₁.bulkOperation? p = some row ∧
          reconcilable row.state = true := by
        intro p hp
        obtain ⟨row, hrow, hstate⟩ := hrows.2 p hp
        have hne : p ≠ name := fun heq => hnames.1 (heq ▸ hp)
        exact ⟨row, (hkept p hne).row.trans hrow, hstate⟩
      exact ih hadvanced.ready hnames.2 hrows₁ ((List.mem_cons.mp hparent).resolve_left hturn)
        (h.of_kept (hkept parentId hturn)) hrest

/-- In every version the system reaches, a stuck parent among the hundred of a pass stops it: the
pass raises and leaves nothing behind, for any of its parents. -/
theorem pass_blocked {clockSkew : ℕ} {start : Database} {labels : List SystemLabel}
    {older : List Database} (hready : Ready start)
    (hrun : Run (ReadyStep R E clockSkew) [start] labels (db :: older))
    (hparent : parentId ∈ pending db) (h : Stuck R parentId db) :
    ∃ e, pass R E db db = (.error e, db) := by
  have hnow : Ready db := ready_run hready hrun db rfl
  obtain ⟨hnames, hrows⟩ := pending_rows hnow
  cases hpass : pass R E db db with
  | mk answer db' =>
    cases answer with
    | ok u =>
      obtain ⟨s', hloop, -⟩ := pass_eq_ok hpass
      exact absurd hloop (forEach_stuck hnow hnames hrows hparent h)
    | error e =>
      have hsame : (pass R E db db).2 = db := pass_error (congrArg Prod.fst hpass)
      rw [hpass] at hsame
      exact ⟨e, by rw [show db' = db from hsame]⟩

end Stuck

namespace Sample

/-- The child of the sample. -/
def child : ControllerOperation :=
  childDocument environment parent target childId (childIdentity runtime parentId targetKey 0).2
    database

/-- The sample paused while its child ran, which then succeeded. -/
def paused : Database :=
  { database with
    operations := [{ child with state := .succeeded }]
    bulkOperations := [{ parent with
      state := .paused, plannedCount := 0, runningCount := 1, pauseRequested := true
      pauseRequestedBy := some "operator@example.com"
      pauseRequestedAt := some Dispatcher.Sample.now }]
    bulkTargets := [{ target with
      state := .child .succeeded, childOperation := some childId }] }

end Sample

open FrappeBulk.Sample in
/-- No pass gets beyond the paused sample. -/
theorem pass_blocked_sample :
    ∃ e, pass runtime environment paused paused = (.error e, paused) := by
  have hready : Ready paused := by
    refine ⟨⟨⟨by decide, by decide, fun op hop op' hop' b _ _ => ?_⟩, fun t ht => ?_, by decide⟩,
      by decide, fun t ht hplanned => ?_⟩
    · rw [List.mem_singleton.mp hop, List.mem_singleton.mp hop']
    · exact absurd ht List.not_mem_nil
    · rw [List.mem_singleton.mp ht] at hplanned
      cases hplanned
  have hread : (readParent (repository runtime environment) parentId (synced paused)).isOk
      = true := by decide +kernel
  have hfinished : (targets paused parentId).toOption.map (fun ts => allTerminal ts
      && ts.any fun t => t.state != .child .cancelled) = some true := by decide +kernel
  have hstuck : Stuck runtime parentId paused := by
    obtain ⟨⟨runtimeParent, ts⟩, hok⟩ := Transaction.exists_eq_ok_of_isOk hread
    obtain ⟨hlock, hts, hplan⟩ := readParent_eq_ok hok
    obtain ⟨row, hrow, hruntime⟩ := bind_eq_ok.mp hlock
    have hts' : targets paused parentId = .ok ts := hts
    rw [hts'] at hfinished
    have hboth := Bool.and_eq_true_iff.mp (Option.some.inj hfinished)
    obtain ⟨t, ht, hother⟩ := List.any_eq_true.mp hboth.2
    exact ⟨_, runtimeParent, ts, rfl, hruntime, hts, hplan, hboth.1,
      .inl ⟨rfl, t, ht, by simpa using hother⟩⟩
  have hpending : parentId ∈ pending paused := by
    rw [show pending paused = [parentId] by decide]
    exact List.mem_cons_self
  have hrun : Run (ReadyStep runtime environment 60) [paused] [] [paused] := .nil _
  exact pass_blocked hready hrun hpending hstuck

end FrappeBulk
end FrappeController
