import FrappeController.BulkLifecycle
import FrappeController.BulkGating
import FrappeController.TargetKeys

/-!
# What a scheduler pass leaves behind

The writes of a reconcile run are listed with what is known of each (`Effect`); they stay on the
rows of one parent (`Frame`). From this: the counters of every parent a pass went through are those
of its targets (`pass_counts`), a pass starts no more work than the policies of its parents allow
(`pass_within`), and a paused parent whose targets have all finished stops every pass
(`pass_blocked`).
-/

namespace FrappeController
namespace FrappeBulk

open FrappeInventory (Session)
open Lifecycle Bulk BulkOrchestrator BulkDocuments OperationDocuments
open Transaction (bind_eq_ok bind_apply_eq_ok query_eq_ok)

/-! ## The writes of a reconcile run -/

/-- Names identify rows, and a planned target has no child. -/
structure Ready (db : Database) : Prop where
  linked : Linked db
  parents : Table.Unique db.bulkOperations
  planned : ∀ t ∈ db.bulkTargets, t.state = .planned → truthy t.childOperation = false

/-- The database with an operation and its target, the saved row of its bulk target, and the
command of the operation. -/
def opened (op : ControllerOperation) (t : OperationTarget) (saved : BulkOperationTarget)
    (text : Text) (digest : String) (db : Database) : Database :=
  queued op.name text digest (saveRow saved (addTarget t (addOperation op db)))

/-- One write for a target of `parentId`, with the agent and bench of the work it starts. -/
inductive Effect (parentId : String) : List (String × String) → Database → Database → Prop
  /-- A planned target is started: its child runs on an agent and a bench. -/
  | start {db : Database} {row : BulkOperationTarget} {op : ControllerOperation}
      {t : OperationTarget} {text : Text} {digest agentId benchId : String}
      (hrow : row ∈ db.bulkTargets) (hparent : row.bulkOperation = parentId)
      (hfree : freeColumns op db = true) (htarget : t.operation = op.name)
      (hagent : (Table.get? db.agents op.serverAgent).map (·.agentId) = some agentId)
      (hbench : (Table.get? db.benches op.bench).map (·.benchId) = some benchId) :
      Effect parentId [(agentId, benchId)] db (setTargetState row.name (.child .queued)
        (opened op t { row with childOperation := some op.name } text digest db))
  /-- The child of a target is asked to stop. -/
  | stop {db : Database} {row : BulkOperationTarget} {op : ControllerOperation}
      {t : OperationTarget} {text : Text} {digest cancellation : String}
      (hrow : row ∈ db.bulkTargets) (hparent : row.bulkOperation = parentId)
      (hplanned : row.state ≠ .planned) (hfree : freeColumns op db = true)
      (htarget : t.operation = op.name) (hcancel : op.operationType = "operation.cancel") :
      Effect parentId [] db
        (opened op t { row with cancellationOperation := some cancellation } text digest db)
  /-- A planned target is cancelled. -/
  | mark {db : Database} {row : BulkOperationTarget} (hrow : row ∈ db.bulkTargets)
      (hparent : row.bulkOperation = parentId) :
      Effect parentId [] db (setTargetState row.name (.child .cancelled) db)

/-! ### Rows -/

section Rows

variable {db : Database} {op : ControllerOperation} {t : OperationTarget}
variable {row saved : BulkOperationTarget} {text : Text} {digest : String}

/-- The new operation is the only one of its name, so the command is its own. -/
theorem operations_opened (hfree : freeColumns op db = true) :
    (opened op t saved text digest db).operations
      = db.operations ++ [Dispatcher.queue text digest op] := by
  have hold : Table.update (fun o => Named.name o = op.name) (Dispatcher.queue text digest)
      db.operations = db.operations :=
    Table.update_of_none _ _ fun o ho => (ne_of_freeColumns hfree ho).1
  show Table.update (fun o => Named.name o = op.name) (Dispatcher.queue text digest)
    (db.operations ++ [op]) = _
  rw [Table.update_append, hold, Table.update_cons]
  simp [Named.name]

/-- A child opened with its target keeps the rows linked. -/
theorem linked_opened (hlinked : Linked db) (hfree : freeColumns op db = true)
    (htarget : t.operation = op.name) : Linked (opened op t saved text digest db) :=
  linked_queued (linked_open hlinked hfree htarget) _ _ _

/-- A write of a row that is not the parent's, before or after, leaves the parent's rows alone. -/
theorem filter_setValue {table : List BulkOperationTarget} (hunique : Table.Unique table)
    {f : BulkOperationTarget → BulkOperationTarget} {name parentId : String} (hrow : row ∈ table)
    (hname : row.name = name) (hbefore : row.bulkOperation ≠ parentId)
    (hafter : (f row).bulkOperation ≠ parentId) :
    (Table.setValue name f table).filter (fun t => t.bulkOperation == parentId)
      = table.filter fun t => t.bulkOperation == parentId := by
  have hkept : ∀ other ∈ table, (if Named.name other = name then f other else other) = other ∨
      ((if Named.name other = name then f other else other).bulkOperation ≠ parentId ∧
        other.bulkOperation ≠ parentId) := by
    intro other hother
    split
    · rename_i hother'
      rw [Table.eq_of_mem hunique hother hrow (hother'.trans hname.symm)]
      exact .inr ⟨hafter, hbefore⟩
    · exact .inl rfl
  show (table.map fun other => if Named.name other = name then f other else other).filter
    (fun t => t.bulkOperation == parentId) = _
  clear hrow hunique
  induction table with
  | nil => rfl
  | cons other rest ih =>
    rw [List.forall_mem_cons] at hkept
    rw [List.map_cons, List.filter_cons, List.filter_cons, ih hkept.2]
    rcases hkept.1 with hsame | ⟨hnew, hold⟩
    · rw [hsame]
    · rw [beq_eq_false_iff_ne.mpr hnew, beq_eq_false_iff_ne.mpr hold]
      rfl

/-- The rows of bulk targets after the target's own row was saved. -/
theorem mem_saved {b' : BulkOperationTarget}
    (h : b' ∈ Table.setValue saved.name (fun _ => saved) db.bulkTargets) :
    b' = saved ∨ b' ∈ db.bulkTargets := by
  obtain ⟨b, hb, rfl⟩ := (Table.mem_update _ _).mp h
  split
  · exact .inl rfl
  · exact .inr hb

end Rows

/-! ### Effects -/

/-- The row of the parent and the rows of its targets are as they were. -/
structure Kept (parentId : String) (db db' : Database) : Prop where
  row : db'.bulkOperation? parentId = db.bulkOperation? parentId
  targets : db'.bulkTargets.filter (fun t => t.bulkOperation == parentId)
    = db.bulkTargets.filter fun t => t.bulkOperation == parentId

/-- Rows are kept over two writes. -/
theorem Kept.trans {parentId : String} {db db' db'' : Database} (h : Kept parentId db db')
    (h' : Kept parentId db' db'') : Kept parentId db db'' :=
  ⟨h'.row.trans h.row, h'.targets.trans h.targets⟩

/-- Only rows of the parent are written. -/
structure Frame (parentId : String) (db db' : Database) : Prop where
  kept : ∀ p, p ≠ parentId → Kept p db db'

/-- Without a write nothing else is written. -/
theorem Frame.refl (parentId : String) (db : Database) : Frame parentId db db :=
  ⟨fun _ _ => ⟨rfl, rfl⟩⟩

/-- Two writes for a parent write no other parent. -/
theorem Frame.trans {parentId : String} {db db' db'' : Database} (h : Frame parentId db db')
    (h' : Frame parentId db' db'') : Frame parentId db db'' :=
  ⟨fun p hp => (h.kept p hp).trans (h'.kept p hp)⟩

/-- The agent and bench of an operation in flight that is no cancellation. -/
def working (db : Database) (op : ControllerOperation) : Option (String × String) :=
  if op.operationType = "operation.cancel" then none else inflightOn db op

/-- The work in flight, by agent and bench. -/
def workload (db : Database) : List (String × String) := db.operations.filterMap (working db)

section Effects

variable {parentId : String} {load : List (String × String)} {db db' : Database}

/-- Every write keeps names unique and planned targets without a child. -/
theorem ready_effect (hready : Ready db) (h : Effect parentId load db db') : Ready db' := by
  cases h with
  | start hrow hparent hfree htarget =>
    refine ⟨linked_setTargetState (linked_opened hready.linked hfree htarget) _ _, hready.parents,
      fun b hb hplanned => ?_⟩
    obtain ⟨b₀, hb₀, rfl⟩ := (Table.mem_update _ _).mp hb
    split at hplanned
    · cases hplanned
    · rename_i hother
      rw [if_neg hother]
      rcases mem_saved hb₀ with rfl | hold
      · exact absurd rfl hother
      · exact hready.planned b₀ hold hplanned
  | stop hrow hparent hstate hfree htarget =>
    refine ⟨linked_opened hready.linked hfree htarget, hready.parents, fun b hb hplanned => ?_⟩
    rcases mem_saved hb with rfl | hold
    · exact absurd hplanned hstate
    · exact hready.planned b hold hplanned
  | mark hrow hparent =>
    refine ⟨linked_setTargetState hready.linked _ _, hready.parents, fun b hb hplanned => ?_⟩
    obtain ⟨b₀, hb₀, rfl⟩ := (Table.mem_update _ _).mp hb
    split at hplanned
    · cases hplanned
    · rename_i hother
      rw [if_neg hother]
      exact hready.planned b₀ hb₀ hplanned

/-- Every write stays among the rows of its parent. -/
theorem frame_effect (hready : Ready db) (h : Effect parentId load db db') :
    Frame parentId db db' := by
  have hunique := hready.linked.bulkTargets
  cases h with
  | @start _ row op _ _ _ _ _ hrow hparent =>
    refine ⟨fun p hp => ⟨rfl, ?_⟩⟩
    have hother : row.bulkOperation ≠ p := fun heq => hp (heq.symm.trans hparent)
    -- the row is saved with its child, and then its state is written
    have hsaved := filter_setValue (f := fun _ => { row with childOperation := some op.name })
      hunique hrow rfl hother hother
    have hmem : { row with childOperation := some op.name } ∈ Table.setValue row.name
        (fun _ => { row with childOperation := some op.name }) db.bulkTargets :=
      (Table.mem_update _ _).mpr ⟨row, hrow, if_pos rfl⟩
    have hunique' : Table.Unique (Table.setValue row.name
        (fun _ => { row with childOperation := some op.name }) db.bulkTargets) :=
      (Table.unique_setValue (f := fun _ => { row with childOperation := some op.name })
        fun _ _ => rfl).mpr hunique
    exact (filter_setValue hunique' hmem rfl hother hother).trans hsaved
  | @stop _ row _ _ _ _ _ hrow hparent =>
    refine ⟨fun p hp => ⟨rfl, ?_⟩⟩
    have hother : row.bulkOperation ≠ p := fun heq => hp (heq.symm.trans hparent)
    exact filter_setValue hunique hrow rfl hother hother
  | @mark _ row hrow hparent =>
    refine ⟨fun p hp => ⟨rfl, ?_⟩⟩
    have hother : row.bulkOperation ≠ p := fun heq => hp (heq.symm.trans hparent)
    exact filter_setValue hunique hrow rfl hother hother

/-- A write adds no work in flight beside that of the child it starts. -/
theorem workload_effect (h : Effect parentId load db db') :
    (workload db').Sublist (workload db ++ load) := by
  -- the opened operation is the only one that is added
  have hadded : ∀ {op : ControllerOperation} {t : OperationTarget} {saved : BulkOperationTarget}
      {text : Text} {digest : String}, freeColumns op db = true →
      (opened op t saved text digest db).operations.filterMap (working db)
        = workload db ++ (working db (Dispatcher.queue text digest op)).toList := by
    intro op t saved text digest hfree
    rw [operations_opened hfree, List.filterMap_append]
    rfl
  cases h with
  | @start _ row op t text digest agentId benchId hrow hparent hfree htarget hagent hbench =>
    show ((opened op t _ text digest db).operations.filterMap (working db)).Sublist _
    rw [hadded hfree]
    refine List.Sublist.append_left ?_ _
    -- it works on the agent and bench of the effect, unless it is a cancellation
    have hworking : working db (Dispatcher.queue text digest op) = none ∨
        working db (Dispatcher.queue text digest op) = some (agentId, benchId) := by
      obtain ⟨agent, hagentRow, rfl⟩ := Option.map_eq_some_iff.mp hagent
      obtain ⟨bench, hbenchRow, rfl⟩ := Option.map_eq_some_iff.mp hbench
      unfold working
      split
      · exact .inl rfl
      · right
        show (Table.get? db.agents op.serverAgent >>= fun agent =>
          Table.get? db.benches op.bench >>= fun bench =>
            if active OperationState.queued then some (agent.agentId, bench.benchId) else none) = _
        rw [hagentRow, hbenchRow]
        rfl
    rcases hworking with hnone | hsome
    · rw [hnone]
      exact List.nil_sublist _
    · rw [hsome]
      exact List.Sublist.refl _
  | @stop _ row op t text digest cancellation hrow hparent hplanned hfree htarget hcancel =>
    show ((opened op t _ text digest db).operations.filterMap (working db)).Sublist _
    rw [hadded hfree]
    have hworking : working db (Dispatcher.queue text digest op) = none := if_pos hcancel
    rw [hworking]
    exact List.Sublist.refl _
  | mark =>
    rw [List.append_nil]
    exact List.Sublist.refl _

end Effects

/-! ### The repository's writes -/

section Repository

variable {R : Runtime} {E : Environment} {db : Database} {s' : Session} {u : Unit}
variable {parentId childId key : String} {target : BulkTargetRuntime}

/-- A new operation that waits for its dispatch is dispatched. -/
theorem enqueue_opened {op : ControllerOperation} {t : OperationTarget}
    {saved : BulkOperationTarget} {lifetime : ℕ} {now : DateTime} {env : List (String × Json)}
    (hlinked : Linked db) (hfree : freeColumns op db = true) (htarget : t.operation = op.name)
    (hstate : op.state = .awaitingApproval)
    (h : enqueueApprovedOperation R lifetime op.name now
      (synced (saveRow saved (addTarget t (addOperation op db)))) = .ok env s') :
    ∃ text digest, s' = synced (opened op t saved text digest db) := by
  obtain ⟨-, found, digest, hfound, -, hdispatch⟩ := enqueueApprovedOperation_eq_ok h
  have hopen : Linked (saveRow saved (addTarget t (addOperation op db))) :=
    linked_open hlinked hfree htarget
  have hschema := hopen.schema
  have hop : op ∈ (saveRow saved (addTarget t (addOperation op db))).operations :=
    List.mem_append_right _ (List.mem_singleton_self op)
  have hsame : found = op := by
    have hget := Table.get?_of_mem hschema.names hop
    exact Option.some.inj (hfound.symm.trans hget)
  rcases hdispatch with ⟨hqueued, -, -⟩ | ⟨text, -, -, hs'⟩
  · rw [hsame, hstate] at hqueued
    cases hqueued
  · exact ⟨text, digest, hs'⟩

/-- Where a saved bulk target is: on the agent and the bench of its key. -/
structure Placed (db : Database) (t : BulkOperationTarget) : Prop where
  key : t.targetKey = targetKeyOf t.agentIdSnapshot t.benchIdSnapshot t.siteIdSnapshot
  agent : (Table.get? db.agents t.serverAgent).map (·.agentId) = some t.agentIdSnapshot
  bench : (Table.get? db.benches t.bench).map (·.benchId) = some t.benchIdSnapshot

/-- A target is saved only on the agent and bench of its key. -/
theorem validateTarget_placed {t : BulkOperationTarget} {previous : Option BulkOperationTarget}
    (h : BulkDocuments.validateTarget R t previous db = .ok u) : Placed db t := by
  obtain ⟨⟨⟩, hcolumns, h⟩ := bind_eq_ok.mp h
  obtain ⟨parent, -, h⟩ := bind_eq_ok.mp h
  obtain ⟨⟨⟩, -, h⟩ := bind_eq_ok.mp h
  obtain ⟨⟨⟩, hownership, -⟩ := bind_eq_ok.mp h
  obtain ⟨⟨⟩, -, hcolumns⟩ := bind_eq_ok.mp hcolumns
  obtain ⟨⟨⟩, -, hcolumns⟩ := bind_eq_ok.mp hcolumns
  obtain ⟨⟨⟩, -, hcolumns⟩ := bind_eq_ok.mp hcolumns
  obtain ⟨⟨⟩, -, hcolumns⟩ := bind_eq_ok.mp hcolumns
  obtain ⟨⟨⟩, -, hcolumns⟩ := bind_eq_ok.mp hcolumns
  obtain ⟨⟨⟩, -, hcolumns⟩ := bind_eq_ok.mp hcolumns
  obtain ⟨⟨⟩, -, hcolumns⟩ := bind_eq_ok.mp hcolumns
  obtain ⟨⟨⟩, -, hcolumns⟩ := bind_eq_ok.mp hcolumns
  obtain ⟨⟨⟩, -, hcolumns⟩ := bind_eq_ok.mp hcolumns
  obtain ⟨⟨⟩, -, hkey⟩ := bind_eq_ok.mp hcolumns
  obtain ⟨⟨⟩, -, hownership⟩ := bind_eq_ok.mp hownership
  obtain ⟨⟨⟩, -, hownership⟩ := bind_eq_ok.mp hownership
  obtain ⟨⟨⟩, -, hsnapshot⟩ := bind_eq_ok.mp hownership
  have hmatches : snapshotMatches t db = true := ensure_eq_ok.mp hsnapshot
  simp only [snapshotMatches, Bool.and_eq_true, beq_iff_eq] at hmatches
  exact ⟨by simpa using ensure_eq_ok.mp hkey, hmatches.1.1, hmatches.1.2⟩

/-- The creation of a child is one write, with the work of that child. -/
theorem createChild_effect (hready : Ready db)
    (h : createChild R E parentId target childId key (synced db) = .ok u s') :
    ∃ db', s' = synced db' ∧
      Effect parentId [(target.snapshot.agentId, target.snapshot.benchId)] db db' := by
  obtain ⟨parent, row, heligible, ⟨hlinked, -, -⟩ | ⟨-, hstart⟩⟩ := createChild_eq_ok h
  · have hrow : row ∈ db.bulkTargets := (targetRow_eq_ok heligible.found).1
    rw [hready.planned row hrow heligible.planned] at hlinked
    cases hlinked
  · obtain ⟨document, s₁, env, hopens, henqueue, rfl⟩ := startChild_eq_ok hstart
    obtain ⟨hrow, hparent, hkey, -⟩ := targetRow_eq_ok heligible.found
    have hread : db.bulkTarget? row.name = some document := hopens.read
    have hsame : document = row := Table.eq_of_mem hready.linked.bulkTargets
      (Table.get?_mem hread) hrow (Table.get?_name hread)
    subst hsame
    obtain ⟨text, digest, rfl⟩ := enqueue_opened hready.linked hopens.free rfl rfl henqueue
    obtain ⟨previous, -, hvalid⟩ := hopens.stored
    have hplaced := validateTarget_placed hvalid
    -- the key of the row is the key of the target, so they are on one agent and bench
    have hids := targetKeyOf_injective (hplaced.key.symm.trans hkey)
    refine ⟨_, rfl, .start hrow hparent hopens.free rfl ?_ ?_⟩
    · rw [← hids.1]
      exact hplaced.agent
    · rw [← hids.2.1]
      exact hplaced.bench

/-- The request to cancel a child is one write without work, or none. -/
theorem requestChildCancel_effect (hready : Ready db)
    (h : requestChildCancel R E parentId target (synced db) = .ok u s') :
    s' = synced db ∨ ∃ db', s' = synced db' ∧ Effect parentId [] db db' := by
  obtain ⟨user, row, child, hcancellable, ⟨-, -, hagain⟩ | ⟨-, hstart⟩⟩ :=
    requestChildCancel_eq_ok h
  · exact .inl hagain
  · obtain ⟨document, revision, env, hopens, henqueue⟩ := startCancel_eq_ok hstart
    obtain ⟨hrow, hparent, -, -⟩ := targetRow_eq_ok hcancellable.found
    have hread : db.bulkTarget? row.name = some document := hopens.read
    have hsame : document = row := Table.eq_of_mem hready.linked.bulkTargets
      (Table.get?_mem hread) hrow (Table.get?_name hread)
    subst hsame
    obtain ⟨text, digest, rfl⟩ := enqueue_opened hready.linked hopens.free rfl rfl henqueue
    have hstarted : document.state ≠ .planned := by
      intro hplanned
      have hnone := hready.planned document hrow hplanned
      rw [hcancellable.linked, truthy, orNone_eq_some.mpr ⟨rfl, hcancellable.nonempty⟩] at hnone
      cases hnone
    exact .inr ⟨_, rfl, .stop hrow hparent hstarted hopens.free rfl rfl⟩

/-- The end of a target without a child is one write without work. -/
theorem markUnstartedCancelled_effect
    (h : markUnstartedCancelled parentId target (synced db) = .ok u s') :
    ∃ db', s' = synced db' ∧ Effect parentId [] db db' := by
  obtain ⟨row, hfound, -, -, rfl⟩ := markUnstartedCancelled_eq_ok h
  obtain ⟨hrow, hparent, -, -⟩ := targetRow_eq_ok hfound
  exact ⟨_, rfl, .mark hrow hparent⟩

end Repository

/-! ## Limits -/

/-- Bounds on the work in flight: in all, on an agent, and on a bench. -/
structure Limits where
  total : ℤ
  agent : ℤ
  bench : ℤ

/-- No count of `after` is above both the same count of `before` and its bound. -/
structure Limited (limits : Limits) (before after : List (String × String)) : Prop where
  total : (after.length : ℤ) ≤ max (before.length : ℤ) limits.total
  agent : ∀ agent, (after.countP (·.1 == agent) : ℤ)
    ≤ max (before.countP (·.1 == agent) : ℤ) limits.agent
  bench : ∀ bench, (after.count bench : ℤ) ≤ max (before.count bench : ℤ) limits.bench

/-- The counts are at least those of the work in flight. -/
structure Covers (counts : InflightCounts) (work : List (String × String)) : Prop where
  total : work.length ≤ counts.globalCount
  agent : ∀ agent, work.countP (·.1 == agent) ≤ counts.byAgent agent
  bench : ∀ bench, work.count bench ≤ counts.byBench bench

section Limits

variable {limits : Limits} {before after later work work' : List (String × String)}
variable {counts : InflightCounts} {agentId benchId : String}

/-- Work that does not change is within any limits. -/
theorem Limited.refl (limits : Limits) (work : List (String × String)) :
    Limited limits work work :=
  ⟨le_max_left _ _, fun _ => le_max_left _ _, fun _ => le_max_left _ _⟩

/-- Limits hold over two steps. -/
theorem Limited.trans (h : Limited limits before after) (h' : Limited limits after later) :
    Limited limits before later where
  total := by
    have := h.total
    have := h'.total
    omega
  agent agent := by
    have := h.agent agent
    have := h'.agent agent
    omega
  bench bench := by
    have := h.bench bench
    have := h'.bench bench
    omega

/-- Less work is within the limits. -/
theorem Limited.sublist (h : Limited limits before after) (hsub : later.Sublist after) :
    Limited limits before later where
  total := le_trans (Int.ofNat_le.mpr hsub.length_le) h.total
  agent agent := le_trans (Int.ofNat_le.mpr hsub.countP_le) (h.agent agent)
  bench bench := le_trans (Int.ofNat_le.mpr (hsub.count_le _)) (h.bench bench)

/-- One more child is covered by the counts with one more. -/
theorem Covers.add (h : Covers counts work) (hwork : work'.Sublist (work ++ [(agentId, benchId)])) :
    Covers (counts.add agentId benchId) work' where
  total := by
    have hlength := hwork.length_le
    have hcovered := h.total
    rw [List.length_append, List.length_singleton] at hlength
    show work'.length ≤ counts.globalCount + 1
    omega
  agent agent := by
    have hcount := hwork.countP_le (p := fun on => on.1 == agent)
    have hcovered := h.agent agent
    rw [List.countP_append, List.countP_singleton] at hcount
    show work'.countP (fun on => on.1 == agent)
      ≤ Function.update counts.byAgent agentId (counts.byAgent agentId + 1) agent
    by_cases hagent : agentId = agent
    · subst hagent
      rw [Function.update_self]
      simp only [beq_self_eq_true, if_true] at hcount
      omega
    · rw [Function.update_of_ne (Ne.symm hagent)]
      simp only [beq_eq_false_iff_ne.mpr hagent] at hcount
      exact le_trans hcount hcovered
  bench bench := by
    have hcount := hwork.count_le bench
    have hcovered := h.bench bench
    rw [List.count_append, List.count_singleton] at hcount
    show work'.count bench ≤ Function.update counts.byBench (agentId, benchId)
      (counts.byBench (agentId, benchId) + 1) bench
    by_cases hbench : (agentId, benchId) = bench
    · subst hbench
      rw [Function.update_self]
      simp only [beq_self_eq_true, if_true] at hcount
      omega
    · rw [Function.update_of_ne (Ne.symm hbench)]
      simp only [beq_eq_false_iff_ne.mpr hbench] at hcount
      exact le_trans hcount hcovered

/-- A child that its parent's policy has room for stays within the bounds of that policy. -/
theorem Limited.start (h : Limited limits before work) (hcovers : Covers counts work)
    {policy : BulkExecutionPolicy} (htotal : policy.globalConcurrency ≤ limits.total)
    (hagents : policy.perAgentConcurrency ≤ limits.agent)
    (hbenches : policy.perBenchConcurrency ≤ limits.bench)
    (hglobal : ¬ policy.globalConcurrency ≤ counts.globalCount)
    (hroom : belowLimits policy counts agentId benchId = true)
    (hwork : work'.Sublist (work ++ [(agentId, benchId)])) : Limited limits before work' := by
  obtain ⟨hagent, hbench⟩ : (counts.byAgent agentId : ℤ) < policy.perAgentConcurrency
      ∧ (counts.byBench (agentId, benchId) : ℤ) < policy.perBenchConcurrency := by
    simpa [belowLimits] using hroom
  refine Limited.sublist ⟨?_, fun agent => ?_, fun bench => ?_⟩ hwork
  · have hcovered := hcovers.total
    rw [List.length_append, List.length_singleton]
    push_cast
    omega
  · have hbound := h.agent agent
    rw [List.countP_append, List.countP_singleton]
    by_cases hsame : agentId = agent
    · subst hsame
      have hcovered := hcovers.agent agentId
      simp only [beq_self_eq_true, if_true]
      push_cast
      omega
    · simp only [beq_eq_false_iff_ne.mpr hsame]
      exact hbound
  · have hbound := h.bench bench
    rw [List.count_append, List.count_singleton]
    by_cases hsame : (agentId, benchId) = bench
    · subst hsame
      have hcovered := hcovers.bench (agentId, benchId)
      simp only [beq_self_eq_true, if_true]
      push_cast
      omega
    · simp only [beq_eq_false_iff_ne.mpr hsame]
      exact hbound

/-- The counts a run reads cover the work in flight: they count cancellations too. -/
theorem covers_inflightCounts (db : Database) : Covers (inflightCounts db) (workload db) := by
  have hsub : (workload db).Sublist (inflight db) := by
    unfold workload inflight
    induction db.operations with
    | nil => exact List.Sublist.refl _
    | cons op rest ih =>
      rw [List.filterMap_cons, List.filterMap_cons]
      unfold working
      by_cases hcancel : op.operationType = "operation.cancel"
      · rw [if_pos hcancel]
        cases inflightOn db op with
        | none => exact ih
        | some on => exact ih.trans (List.sublist_cons_self _ _)
      · rw [if_neg hcancel]
        cases inflightOn db op with
        | none => exact ih
        | some on => exact ih.cons_cons on
  exact ⟨hsub.length_le, fun agent => hsub.countP_le, fun bench => hsub.count_le bench⟩

end Limits

/-! ## One parent -/

section Parent

variable {R : Runtime} {E : Environment} {db : Database} {s' : Session} {u : Unit}
variable {parentId : String} {limits : Limits}

/-- A checked policy has the fields it was made of. -/
theorem policyFields_new {p : PolicyFields} {policy : BulkExecutionPolicy}
    (h : p.new = .ok policy) : policy.toPolicyFields = p := by
  unfold PolicyFields.new at h
  split at h
  · cases h
    rfl
  · cases h

/-- A checked plan has the fields it was made of. -/
theorem planFields_new {p : PlanFields} {plan : BulkPlan} (h : p.new = .ok plan) :
    plan.toPlanFields = p := by
  unfold PlanFields.new at h
  split at h
  · cases h
    rfl
  · cases h

/-- What is not corrupt is read as it is. -/
theorem orCorrupt_eq_ok {α : Type} {x : Except Exc α} {a : α} :
    orCorrupt x = .ok a ↔ x = .ok a := by
  cases x <;> simp [orCorrupt, Except.mapError]

/-- The runtime of a parent repeats the columns of its row. -/
structure Runs (row : BulkOperation) (parent : BulkParentRuntime) : Prop where
  state : parent.state = row.state
  policy : parent.plan.policy.toPolicyFields = policyFields row
  pause : parent.pauseRequested = row.pauseRequested
  cancel : parent.cancelRequested = row.cancelRequested

/-- The runtime of a parent is read from its row. -/
theorem parentRuntime_eq_ok {parent : BulkParentRuntime}
    (h : parentRuntime R db parentId = .ok parent) :
    ∃ row, db.bulkOperation? parentId = some row ∧ Runs row parent := by
  obtain ⟨row, hrow, h⟩ := bind_eq_ok.mp h
  obtain ⟨fields, -, h⟩ := bind_eq_ok.mp h
  obtain ⟨plan, hplan, h⟩ := bind_eq_ok.mp h
  obtain ⟨⟨⟩, -, h⟩ := bind_eq_ok.mp h
  cases h
  obtain ⟨selector, -, hplan⟩ := bind_eq_ok.mp (orCorrupt_eq_ok.mp hplan)
  obtain ⟨targets, -, hplan⟩ := bind_eq_ok.mp hplan
  obtain ⟨policy, hpolicy, hplan⟩ := bind_eq_ok.mp hplan
  have hfields := planFields_new hplan
  refine ⟨row, ?_, rfl, ?_, rfl, rfl⟩
  · unfold parentRow at hrow
    split at hrow
    · cases hrow
    · rename_i found hfound
      cases hrow
      exact hfound
  · show plan.policy.toPolicyFields = policyFields row
    rw [hfields]
    exact policyFields_new hpolicy

/-- What one run leaves behind: only rows of its parent are written, and no more work is in flight
than the bounds allow. -/
structure Advanced (parentId : String) (limits : Limits) (db db' : Database) : Prop where
  ready : Ready db'
  frame : Frame parentId db db'
  limited : Limited limits (workload db) (workload db')

/-- A run that writes nothing advances nothing. -/
theorem Advanced.refl (parentId : String) (limits : Limits) (hready : Ready db) :
    Advanced parentId limits db db :=
  ⟨hready, .refl _ _, .refl _ _⟩

/-- A write that starts no work. -/
theorem Advanced.effect {db₀ db' : Database} (h : Advanced parentId limits db₀ db)
    (heffect : Effect parentId [] db db') : Advanced parentId limits db₀ db' := by
  have hwork := workload_effect heffect
  rw [List.append_nil] at hwork
  exact ⟨ready_effect h.ready heffect, h.frame.trans (frame_effect h.ready heffect),
    h.limited.sublist hwork⟩

/-- The policy of a parent is within the bounds. -/
structure Allows (limits : Limits) (policy : PolicyFields) : Prop where
  total : policy.globalConcurrency ≤ limits.total
  agent : policy.perAgentConcurrency ≤ limits.agent
  bench : policy.perBenchConcurrency ≤ limits.bench

/-- Starting targets stays within the limits: each child is counted before the next one. -/
theorem startTargets_advanced {policy : BulkExecutionPolicy} {targets : List BulkTargetRuntime}
    {counts : InflightCounts} (hready : Ready db) (hallows : Allows limits policy.toPolicyFields)
    (hcovers : Covers counts (workload db))
    (h : startTargets (repository R E) R policy parentId targets counts (synced db) = .ok () s') :
    ∃ db', s' = synced db' ∧ Advanced parentId limits db db' := by
  -- the counts of the loop cover the work the run has started so far
  have hrule := startTargets_rule (I := fun counts s => ∃ db', s = synced db' ∧
      Advanced parentId limits db db' ∧ Covers counts (workload db'))
    (fun {target counts s s'} hinv hglobal hroom hcreate => by
      obtain ⟨db₁, rfl, hadvanced, hcovers⟩ := hinv
      obtain ⟨db', hs', heffect⟩ := createChild_effect hadvanced.ready hcreate
      have hwork := workload_effect heffect
      refine ⟨db', hs', ⟨ready_effect hadvanced.ready heffect,
        hadvanced.frame.trans (frame_effect hadvanced.ready heffect), ?_⟩, hcovers.add hwork⟩
      exact hadvanced.limited.start hcovers hallows.total hallows.agent hallows.bench hglobal hroom
        hwork)
    ⟨db, rfl, .refl parentId limits hready, hcovers⟩ h
  obtain ⟨-, db', hs', hadvanced, -⟩ := hrule
  exact ⟨db', hs', hadvanced⟩

/-- Cancelling targets starts no work. -/
theorem cancelTargets_advanced {targets : List BulkTargetRuntime} (hready : Ready db)
    (h : Transaction.forEach (cancelTarget (repository R E) parentId) targets (synced db)
      = .ok u s') : ∃ db', s' = synced db' ∧ Advanced parentId limits db db' := by
  have hloop : ∀ {db₁ : Database} {targets : List BulkTargetRuntime},
      Advanced parentId limits db db₁ →
      Transaction.forEach (cancelTarget (repository R E) parentId) targets (synced db₁)
        = .ok u s' → ∃ db', s' = synced db' ∧ Advanced parentId limits db db' := by
    intro db₁ targets hadvanced hrest
    induction targets generalizing db₁ with
    | nil =>
      cases hrest
      exact ⟨db₁, rfl, hadvanced⟩
    | cons target rest ih =>
      obtain ⟨⟨⟩, s₁, hfirst, hrest⟩ := bind_apply_eq_ok.mp hrest
      unfold cancelTarget at hfirst
      split at hfirst
      · obtain ⟨db₂, rfl, heffect⟩ := markUnstartedCancelled_effect hfirst
        exact ih (hadvanced.effect heffect) hrest
      · split at hfirst
        · obtain rfl | ⟨db₂, rfl, heffect⟩ := requestChildCancel_effect hadvanced.ready hfirst
          · exact ih hadvanced hrest
          · exact ih (hadvanced.effect heffect) hrest
        · cases hfirst
          exact ih hadvanced hrest
  exact hloop (.refl parentId limits hready) h

/-- The targets of a parent are read from its rows alone. -/
theorem targets_of_filter {db db' : Database}
    (h : db'.bulkTargets.filter (fun t => t.bulkOperation == parentId)
      = db.bulkTargets.filter fun t => t.bulkOperation == parentId) :
    targets db' parentId = targets db parentId := by
  rw [targets, targets, rows, rows, h]

/-- The counters of the parent's row are those of its targets, and its state follows from them. -/
structure Counted (parentId : String) (db : Database) : Prop where
  counted : ∃ row ts active, db.bulkOperation? parentId = some row ∧
    targets db parentId = .ok ts ∧
    counters row = ([Bucket.planned, .queued, .running, .succeeded, .failed, .cancelled,
      .needsIntervention].map fun b => (bucketCount b (states ts) : ℤ)) ∧
    row.state = finalState ts active ∧
    active ∈ [BulkState.canary, .running, .paused, .cancelling]

/-- The counters of a parent depend on its own rows only. -/
theorem Counted.of_kept {db db' : Database} (h : Counted parentId db)
    (hkept : Kept parentId db db') : Counted parentId db' := by
  obtain ⟨row, ts, active, hrow, htargets, hrest⟩ := h.counted
  exact ⟨row, ts, active, hkept.row.trans hrow,
    (targets_of_filter hkept.targets).trans htargets, hrest⟩

/-- A parent in progress is in one of four states. -/
theorem activeState_mem (parent : BulkParentRuntime) (targets : List BulkTargetRuntime)
    (exhausted : Bool) :
    activeState parent targets exhausted ∈ [BulkState.canary, .running, .paused, .cancelling] := by
  unfold activeState
  repeat' split
  all_goals simp

/-- A write of the parent's row. -/
theorem advanced_setBulkOperation (hready : Ready db) {f : BulkOperation → BulkOperation}
    (hname : ∀ r : BulkOperation, Named.name r = parentId → Named.name (f r) = parentId) :
    Advanced parentId limits db (db.setBulkOperation parentId f) := by
  have hlinked : Linked (db.setBulkOperation parentId f) :=
    ⟨⟨hready.linked.schema.names, hready.linked.schema.ids, hready.linked.schema.bulk⟩,
      hready.linked.targets, hready.linked.bulkTargets⟩
  refine ⟨⟨hlinked, (Table.unique_setValue hname).mpr hready.parents, hready.planned⟩,
    ⟨fun p hp => ⟨?_, rfl⟩⟩, .refl _ _⟩
  refine (Table.get?_setValue hname db.bulkOperations p).trans ?_
  simp only [if_neg hp]
  exact Option.map_id'

/-- The row of a parent is found after it was written. -/
theorem get?_setBulkOperation {row : BulkOperation} {f : BulkOperation → BulkOperation}
    (hrow : db.bulkOperation? parentId = some row)
    (hname : ∀ r : BulkOperation, Named.name r = parentId → Named.name (f r) = parentId) :
    (db.setBulkOperation parentId f).bulkOperation? parentId = some (f row) := by
  refine (Table.get?_setValue hname db.bulkOperations parentId).trans ?_
  rw [show Table.get? db.bulkOperations parentId = some row from hrow, Option.map_some, if_pos rfl]

/-- The progress of a parent is recorded: its row is written, and agrees with its targets. -/
theorem recorded_counted (limits : Limits) {active state : BulkState} (hready : Ready db)
    (hactive : active ∈ [BulkState.canary, .running, .paused, .cancelling])
    (h : Recorded (repository R E) parentId active state (synced db) s') :
    ∃ db', s' = synced db' ∧ Advanced parentId limits db db' ∧ Counted parentId db' := by
  obtain ⟨ts, htargets, hstate, hupdate⟩ := h.recorded
  obtain ⟨row, previous, hrow, -, -, rfl⟩ := updateParent_eq_ok hupdate
  have hrow' : db.bulkOperation? parentId = some row := hrow
  have hrowName : row.name = parentId := Table.get?_name hrow'
  have hname : ∀ r : BulkOperation, Named.name r = parentId → Named.name
      (recordProgress (E.clock parentId) state (aggregateChildStates (states ts)) row)
        = parentId := fun _ _ => hrowName
  exact ⟨_, rfl, advanced_setBulkOperation hready hname,
    ⟨_, ts, active, get?_setBulkOperation hrow' hname, htargets, rfl, hstate, hactive⟩⟩

/-- A parent that a run could not progress is left as it was, but for the state that asks for
intervention. -/
structure Intervened (E : Environment) (parentId : String) (db db' : Database) : Prop where
  row : ∃ row, db.bulkOperation? parentId = some row ∧
    db'.bulkOperation? parentId = some (intervene (E.clock parentId) row)
  targets : db'.bulkTargets.filter (fun t => t.bulkOperation == parentId)
    = db.bulkTargets.filter fun t => t.bulkOperation == parentId

/-- What the bounds ask of a version: they allow the policy of every parent in `names`. -/
def AllowsAll (limits : Limits) (names : List String) (db : Database) : Prop :=
  ∀ name ∈ names, ∀ row, db.bulkOperation? name = some row → Allows limits (policyFields row)

/-- One run that returns: the parent is settled, or counted. -/
theorem reconcile_advanced {state : BulkState} (hready : Ready db)
    (hallows : ∀ row, db.bulkOperation? parentId = some row → Allows limits (policyFields row))
    (h : reconcile (repository R E) R parentId (synced db) = .ok state s') :
    ∃ db' row, s' = synced db' ∧ Advanced parentId limits db db' ∧
      db.bulkOperation? parentId = some row ∧
      (settled row.state = true ∨ Counted parentId db') := by
  obtain ⟨parent, ts, hread, hadvance⟩ := reconcile_eq_ok h
  obtain ⟨hlock, -, -⟩ := readParent_eq_ok hread
  obtain ⟨locked, -, hruntime⟩ := bind_eq_ok.mp hlock
  obtain ⟨row, hrow, hruns⟩ := parentRuntime_eq_ok hruntime
  have hpolicy : Allows limits parent.plan.policy.toPolicyFields :=
    hruns.policy ▸ hallows row hrow
  have hrule := advance_rule
    (P := fun s => ∃ db', s = synced db' ∧ Advanced parentId limits db db')
    ⟨db, rfl, .refl parentId limits hready⟩
    (fun hloop => cancelTargets_advanced hready hloop)
    (fun {counts s₁} hcounts hloop => by
      have hcovers : Covers counts (workload db) := by
        have hsame : inflightCounts db = counts := Except.ok.inj hcounts
        rw [← hsame]
        exact covers_inflightCounts db
      exact startTargets_advanced hready hpolicy hcovers hloop)
    hadvance
  obtain ⟨hsettled, -, rfl⟩ | ⟨-, exhausted, s₁, ⟨db₁, rfl, hadvanced⟩, hrecorded⟩ := hrule
  · exact ⟨db, row, rfl, .refl parentId limits hready, hrow, .inl (hruns.state ▸ hsettled)⟩
  · have hactive := activeState_mem parent ts exhausted
    obtain ⟨db', rfl, hlast, hcounted⟩ := recorded_counted limits hadvanced.ready hactive hrecorded
    exact ⟨db', row, rfl, ⟨hlast.ready, hadvanced.frame.trans hlast.frame,
      hadvanced.limited.trans hlast.limited⟩, hrow, .inr hcounted⟩

/-- No parent a pass goes through is settled. -/
theorem not_settled {state : BulkState} (h : reconcilable state = true) :
    settled state = false := by
  revert h
  cases state <;> decide

/-- One round of the loop. -/
theorem reconcileParent_advanced {row : BulkOperation} (hready : Ready db)
    (hrow : db.bulkOperation? parentId = some row) (hstate : reconcilable row.state = true)
    (hallows : Allows limits (policyFields row))
    (h : reconcileParent R E parentId (synced db) = .ok u s') :
    ∃ db', s' = synced db' ∧ Advanced parentId limits db db' ∧
      (Counted parentId db' ∨ Intervened E parentId db db') := by
  unfold reconcileParent at h
  split at h
  · rename_i state s₁ hreconcile
    cases h
    have hall : ∀ row', db.bulkOperation? parentId = some row' →
        Allows limits (policyFields row') := fun row' hrow' =>
      Option.some.inj (hrow.symm.trans hrow') ▸ hallows
    obtain ⟨db', row', rfl, hadvanced, hrow', hsettled | hcounted⟩ :=
      reconcile_advanced hready hall hreconcile
    · rw [← Option.some.inj (hrow.symm.trans hrow'), not_settled hstate] at hsettled
      cases hsettled
    · exact ⟨db', rfl, hadvanced, .inl hcounted⟩
  · split at h
    · rw [FrappeInventory.write_eq_ok] at h
      have hname : ∀ r : BulkOperation, Named.name r = parentId →
          Named.name (intervene (E.clock parentId) r) = parentId := fun _ hr => hr
      exact ⟨_, h, advanced_setBulkOperation hready hname,
        .inr ⟨⟨row, hrow, get?_setBulkOperation hrow hname⟩, rfl⟩⟩
    · cases h

end Parent

/-! ## A whole pass -/

section Pass

variable {R : Runtime} {E : Environment} {db db' : Database} {s' : Session} {u : Unit}
variable {limits : Limits} {names : List String}

/-- What the rounds of the loop over `names` leave behind. -/
structure Passed (E : Environment) (names : List String) (limits : Limits) (db db' : Database) :
    Prop where
  ready : Ready db'
  others : ∀ p, p ∉ names → Kept p db db'
  limited : Limited limits (workload db) (workload db')
  parents : ∀ p ∈ names, Counted p db' ∨ Intervened E p db db'

/-- A parent that intervention was asked for, and that was left alone before and after. -/
theorem Intervened.of_kept {parentId : String} {db₀ db₁ db₂ db₃ : Database}
    (h : Intervened E parentId db₁ db₂) (hbefore : Kept parentId db₀ db₁)
    (hafter : Kept parentId db₂ db₃) : Intervened E parentId db₀ db₃ := by
  obtain ⟨⟨row, hrow, hrow'⟩, htargets⟩ := h
  exact ⟨⟨row, hbefore.row.symm.trans hrow, hafter.row.trans hrow'⟩,
    hafter.targets.trans (htargets.trans hbefore.targets)⟩

/-- The induction is on the names: each round finds the row of its parent as the loop found it. -/
theorem forEach_passed (hready : Ready db) (hnames : names.Nodup)
    (hrows : ∀ p ∈ names, ∃ row, db.bulkOperation? p = some row ∧
      reconcilable row.state = true ∧ Allows limits (policyFields row))
    (h : Transaction.forEach (reconcileParent R E) names (synced db) = .ok u s') :
    ∃ db', s' = synced db' ∧ Passed E names limits db db' := by
  induction names generalizing db with
  | nil =>
    cases h
    exact ⟨db, rfl, hready, fun _ _ => ⟨rfl, rfl⟩, .refl _ _, fun _ hp => absurd hp List.not_mem_nil⟩
  | cons name rest ih =>
    rw [List.nodup_cons] at hnames
    rw [List.forall_mem_cons] at hrows
    obtain ⟨⟨⟩, s₁, hfirst, hrest⟩ := bind_apply_eq_ok.mp h
    obtain ⟨row, hrow, hstate, hallows⟩ := hrows.1
    obtain ⟨db₁, rfl, hadvanced, hround⟩ :=
      reconcileParent_advanced hready hrow hstate hallows hfirst
    have hframe := hadvanced.frame.kept
    have hne : ∀ p ∈ rest, p ≠ name := fun p hp heq => hnames.1 (heq ▸ hp)
    have hrows₁ : ∀ p ∈ rest, ∃ row, db₁.bulkOperation? p = some row ∧
        reconcilable row.state = true ∧ Allows limits (policyFields row) := by
      intro p hp
      obtain ⟨row, hrow, hrest⟩ := hrows.2 p hp
      exact ⟨row, (hframe p (hne p hp)).row.trans hrow, hrest⟩
    obtain ⟨db', rfl, hpassed⟩ := ih hadvanced.ready hnames.2 hrows₁ hrest
    refine ⟨db', rfl, hpassed.ready, fun p hp => ?_, hadvanced.limited.trans hpassed.limited,
      List.forall_mem_cons.mpr ⟨?_, fun p hp => ?_⟩⟩
    · rw [List.mem_cons, not_or] at hp
      exact (hframe p hp.1).trans (hpassed.others p hp.2)
    · -- the later rounds leave this parent alone
      have hkept := hpassed.others name hnames.1
      exact hround.imp (·.of_kept hkept) (·.of_kept ⟨rfl, rfl⟩ hkept)
    · exact (hpassed.parents p hp).imp id (·.of_kept (hframe p (hne p hp)) ⟨rfl, rfl⟩)

/-- The parents of a pass have rows of their own, in states it goes on from. -/
theorem pending_rows (hready : Ready db) :
    (pending db).Nodup ∧ ∀ p ∈ pending db, ∃ row, db.bulkOperation? p = some row ∧
      reconcilable row.state = true := by
  have hsub : ((db.bulkOperations.filter fun op => reconcilable op.state).insertionSort
      (fun a b => a.creation.micros ≤ b.creation.micros)).Perm
        (db.bulkOperations.filter fun op => reconcilable op.state) :=
    List.perm_insertionSort _ _
  refine ⟨?_, fun p hp => ?_⟩
  · have hsorted : (((db.bulkOperations.filter fun op => reconcilable op.state).insertionSort
        fun a b => a.creation.micros ≤ b.creation.micros).map (·.name)).Nodup := by
      refine (hsub.map (·.name)).nodup_iff.mpr ?_
      exact hready.parents.sublist (List.filter_sublist.map _)
    refine hsorted.sublist ?_
    exact (List.take_sublist _ _).map _
  · obtain ⟨row, hrow, rfl⟩ := List.mem_map.mp hp
    have hmem := List.mem_filter.mp (hsub.mem_iff.mp (List.mem_of_mem_take hrow))
    exact ⟨row, Table.get?_of_mem hready.parents hmem.1, hmem.2⟩

/-- Bounds that allow every policy of a list of parents. -/
theorem exists_allows (names : List String) (db : Database) :
    ∃ limits, ∀ p ∈ names, ∀ row, db.bulkOperation? p = some row →
      Allows limits (policyFields row) := by
  induction names with
  | nil => exact ⟨⟨0, 0, 0⟩, fun p hp => absurd hp List.not_mem_nil⟩
  | cons name rest ih =>
    obtain ⟨limits, hrest⟩ := ih
    cases hrow : db.bulkOperation? name with
    | none =>
      refine ⟨limits, List.forall_mem_cons.mpr ⟨fun row h => ?_, hrest⟩⟩
      rw [hrow] at h
      cases h
    | some row =>
      refine ⟨⟨max limits.total (policyFields row).globalConcurrency,
        max limits.agent (policyFields row).perAgentConcurrency,
        max limits.bench (policyFields row).perBenchConcurrency⟩,
        List.forall_mem_cons.mpr ⟨fun row' h => ?_, fun p hp row' h => ?_⟩⟩
      · rw [Option.some.inj (h.symm.trans hrow)]
        exact ⟨le_max_right _ _, le_max_right _ _, le_max_right _ _⟩
      · have hallows := hrest p hp row' h
        exact ⟨le_max_of_le_left hallows.total, le_max_of_le_left hallows.agent,
          le_max_of_le_left hallows.bench⟩

/-- A pass that raises leaves nothing behind. -/
theorem pass_error {e : Exc} (h : (pass R E db db).1 = .error e) : (pass R E db db).2 = db := by
  unfold pass at h ⊢
  split at h
  · cases h
  · rfl

/-- A pass that returns commits what it wrote. -/
theorem pass_ok (h : (pass R E db db).1 = .ok u) :
    pass R E db db = (.ok u, (pass R E db db).2) := Prod.ext h rfl

/-- A pass that returns went through all of its parents. -/
theorem pass_eq_ok (h : pass R E db db = (.ok u, db')) :
    ∃ s', Transaction.forEach (reconcileParent R E) (pending db) (synced db) = .ok u s' ∧
      s'.current = db' := by
  unfold pass at h
  split at h
  · rename_i session hpass
    cases h
    obtain ⟨names, s₁, hread, hloop⟩ := bind_apply_eq_ok.mp hpass
    obtain ⟨hnames, rfl⟩ := FrappeInventory.read_eq_ok.mp hread
    cases hnames
    exact ⟨session, hloop, rfl⟩
  · cases h

/-- A pass that returns went through every pending parent. -/
theorem pass_passed (hready : Ready db) (hallows : AllowsAll limits (pending db) db)
    (h : pass R E db db = (.ok u, db')) : Passed E (pending db) limits db db' := by
  obtain ⟨s', hloop, rfl⟩ := pass_eq_ok h
  obtain ⟨hnames, hrows⟩ := pending_rows hready
  have hall : ∀ p ∈ pending db, ∃ row, db.bulkOperation? p = some row ∧
      reconcilable row.state = true ∧ Allows limits (policyFields row) := by
    intro p hp
    obtain ⟨row, hrow, hstate⟩ := hrows p hp
    exact ⟨row, hrow, hstate, hallows p hp row hrow⟩
  obtain ⟨db', rfl, hpassed⟩ := forEach_passed hready hnames hall hloop
  exact hpassed

end Pass

/-! ## Runs -/

section Runs

variable {R : Runtime} {E : Environment} {clockSkew : ℕ} {db db' : Database}
variable {older : List Database} {history : List Database} {l : Label}

/-- Moving an operation on keeps the tables ready. -/
theorem ready_advance (hready : Ready db) {name : String} {bulkTarget : Option String}
    {f : ControllerOperation → ControllerOperation} {g : OperationTarget → OperationTarget}
    {h : BulkOperationTarget → BulkOperationTarget} (hkeys : KeepsKeys f g h)
    (hplanned : bulkTarget = none ∨ ∀ b, (h b).state = .planned →
      b.state = .planned ∧ (h b).childOperation = b.childOperation) :
    Ready (db.advance name bulkTarget f g h) := by
  have hlinked : Linked (db.advance name bulkTarget f g h) := linked_advance hready.linked hkeys
  cases bulkTarget with
  | none => exact ⟨hlinked, hready.parents, hready.planned⟩
  | some target =>
    refine ⟨hlinked, hready.parents, fun b hb hstate => ?_⟩
    obtain ⟨b₀, hb₀, rfl⟩ := (Table.mem_update _ _).mp hb
    split at hstate
    · rename_i hsame
      obtain ⟨hbefore, hchild⟩ := hplanned.resolve_left (Option.some_ne_none _) b₀ hstate
      rw [if_pos hsame, hchild]
      exact hready.planned b₀ hb₀ hbefore
    · rename_i hother
      rw [if_neg hother]
      exact hready.planned b₀ hb₀ hstate

/-- A result leaves no target planned that was not. -/
theorem recordBulkTarget_planned {r : IngestedResult} {state : OperationState}
    {errorCode : Option String} {b : BulkOperationTarget}
    (h : (FrappeRepository.recordBulkTarget r state errorCode b).state = .planned) :
    b.state = .planned := by
  have hstate : (if state = .queued then b.state else .child state) = .planned := h
  split at hstate
  · exact hstate
  · cases hstate

/-- A step of the lifecycle keeps the tables ready. -/
theorem ready_writes (hready : Ready db)
    (h : Lifecycle.Writes R E.lifetime clockSkew history l db db') : Ready db' := by
  induction h with
  | refl => exact hready
  | step _ hwrite ih =>
    cases hwrite with
    | queue =>
      exact ready_advance ih ⟨fun _ => ⟨rfl, rfl, rfl⟩, fun _ => ⟨rfl, rfl⟩, fun _ => rfl⟩ (.inl rfl)
    | fail =>
      exact ready_advance ih ⟨fun _ => ⟨rfl, rfl, rfl⟩, fun _ => ⟨rfl, rfl⟩, fun _ => rfl⟩
        (.inr fun _ hstate => BulkTargetState.noConfusion hstate)
    | lease =>
      exact ready_advance ih ⟨fun _ => ⟨rfl, rfl, rfl⟩, fun _ => ⟨rfl, rfl⟩, fun _ => rfl⟩ (.inl rfl)
    | record =>
      exact ready_advance ih ⟨fun _ => ⟨rfl, rfl, rfl⟩, fun _ => ⟨rfl, rfl⟩, fun _ => rfl⟩
        (.inr fun b hstate => ⟨recordBulkTarget_planned hstate, rfl⟩)

/-- A batch of events writes the event log and the cursors. -/
theorem insertEvents_parents {operation operationId : String} {cursor last : ℕ}
    {events : List IngestedEvent}
    (h : FrappeRepository.insertEvents R operation operationId cursor events db = .ok last db') :
    db'.bulkOperations = db.bulkOperations := by
  induction events generalizing db cursor with
  | nil =>
    cases h
    rfl
  | cons e rest ih =>
    unfold FrappeRepository.insertEvents at h
    split at h
    · cases h
    · obtain ⟨_, db₁, hinsert, hrest⟩ := bind_apply_eq_ok.mp h
      obtain ⟨-, rfl⟩ := FrappeRepository.insertEvent_eq_ok hinsert
      have hrest' := ih hrest
      exact hrest'

/-- Appending events writes no parent. -/
theorem appendEvents_parents {agentId operationId : String} {expectedLastSequence cursor : ℕ}
    {events : List IngestedEvent}
    (h : FrappeRepository.appendEvents R agentId operationId expectedLastSequence events db
      = .ok cursor db') : db'.bulkOperations = db.bulkOperations := by
  obtain ⟨start, db₁, hget, hbody⟩ := bind_apply_eq_ok.mp h
  cases hget
  cases hrow : FrappeRepository.operationRow? db operationId with
  | none =>
    rw [hrow] at hbody
    cases hbody
  | some row =>
    rw [hrow] at hbody
    dsimp only at hbody
    split at hbody
    · cases hbody
    · split at hbody
      · split at hbody <;> cases hbody
        rfl
      · obtain ⟨last, db₂, hinsert, hcheck⟩ := bind_apply_eq_ok.mp hbody
        obtain ⟨final, db₃, hget, hreturn⟩ := bind_apply_eq_ok.mp hcheck
        cases hget
        split at hreturn <;> cases hreturn
        exact insertEvents_parents hinsert

/-- A batch of events writes no parent. -/
theorem ingestEvents_parents {body : Json} {receivedAt : DateTime}
    {request request' : FrappeRepository.Request} {cursor : ℕ}
    (h : Ingestion.ingestEvents R (FrappeRepository.repository R) body receivedAt request
      = .ok cursor request') : request'.current.bulkOperations = request.current.bulkOperations := by
  have hsees : ∀ request, FrappeRepository.Sees (fun _ => True) request :=
    fun _ => ⟨trivial, fun _ _ => trivial⟩
  obtain ⟨⟨raw, agent, operationId⟩, request₁, hquery, h₁⟩ := bind_apply_eq_ok.mp h
  obtain ⟨-, rfl⟩ := query_eq_ok.mp hquery
  obtain ⟨identity, request₂, howner, h₂⟩ := bind_apply_eq_ok.mp h₁
  obtain ⟨-, -, -, hcurrent₂⟩ := FrappeRepository.owner_eq_ok (hsees request) howner
  obtain ⟨parsed, request₃, hquery', h₃⟩ := bind_apply_eq_ok.mp h₂
  obtain ⟨-, rfl⟩ := query_eq_ok.mp hquery'
  obtain ⟨⟨last, pending⟩, request₄, hpending, h₄⟩ := bind_apply_eq_ok.mp h₃
  obtain ⟨hcurrent₄, -, -⟩ := FrappeRepository.pendingEvents_eq_ok (hsees request₂) hpending
  rw [← hcurrent₂, ← hcurrent₄]
  dsimp only at h₄
  split at h₄
  · cases h₄
    rfl
  · obtain ⟨committed, request₅, hlocked, h₅⟩ := bind_apply_eq_ok.mp h₄
    obtain ⟨after, hafter, rfl⟩ := FrappeRepository.locked_eq_ok.mp hlocked
    split at h₅ <;> cases h₅
    exact appendEvents_parents hafter

/-- A batch of events keeps the tables ready. -/
theorem ready_serveEvents (hready : Ready db) {body : Json} {receivedAt : DateTime}
    {views : List Database} :
    Ready (FrappeRepository.serveEvents R body receivedAt views db).2 := by
  unfold FrappeRepository.serveEvents FrappeRepository.serve
  split
  · rename_i cursor request hok
    have honly : EventsOnly db request.current := ingestEvents_eventsOnly hok
    have hparents : request.current.bulkOperations = db.bulkOperations := ingestEvents_parents hok
    refine ⟨linked_eventsOnly hready.linked honly, ?_, ?_⟩
    · show Table.Unique request.current.bulkOperations
      rw [hparents]
      exact hready.parents
    · show ∀ t ∈ request.current.bulkTargets, _
      rw [honly.bulkTargets]
      exact hready.planned
  · exact hready

/-- Every step of the lifecycle keeps the tables ready. -/
theorem ready_step (hready : Ready db)
    (h : Step R E.lifetime clockSkew (db :: older) l (db' :: db :: older))
    (hother : l = .other → Ready db') : Ready db' := by
  cases h with
  | dispatch =>
    unfold Transaction.committed
    split
    · rename_i hok
      have hwrites : Lifecycle.Writes R E.lifetime clockSkew (db :: older) _ db _ :=
        dispatch_writes hok
      exact ready_writes hready hwrites
    · exact hready
  | lease =>
    unfold Transaction.committed
    split
    · rename_i hok
      have hwrites : Lifecycle.Writes R E.lifetime clockSkew (db :: older) .other db _ :=
        lease_writes hok
      exact ready_writes hready hwrites
    · exact hready
  | result hviews =>
    unfold serveResult FrappeRepository.serve
    split
    · rename_i hok
      have hwrites : Lifecycle.Writes R E.lifetime clockSkew (db :: older) _ db _ :=
        result_writes hviews hok
      exact ready_writes hready hwrites
    · exact hready
  | events => exact ready_serveEvents hready
  | other => exact hother rfl

/-- A pass keeps the tables ready, whether it returns or not. -/
theorem ready_pass (hready : Ready db) : Ready (pass R E db db).2 := by
  obtain ⟨limits, hallows⟩ := exists_allows (pending db) db
  cases hpass : pass R E db db with
  | mk answer db' =>
    cases answer with
    | ok u => exact (pass_passed hready hallows hpass).ready
    | error e =>
      have hsame : (pass R E db db).2 = db := pass_error (congrArg Prod.fst hpass)
      rw [hpass] at hsame
      rw [show db' = db from hsame]
      exact hready

/-- One commit of the system. The other transactions keep the rows linked, and their names. -/
def ReadyStep (R : Runtime) (E : Environment) (clockSkew : ℕ) (before : List Database)
    (l : SystemLabel) (after : List Database) : Prop :=
  SystemStep R E clockSkew before l after ∧ (l = .step .other → ∀ db ∈ after.head?, Ready db)

/-- The tables are ready in every version the system reaches. -/
theorem ready_run {start : Database} {labels : List SystemLabel} {versions : List Database}
    (hready : Ready start) (hrun : Run (ReadyStep R E clockSkew) [start] labels versions) :
    ∀ db ∈ versions.head?, Ready db := by
  refine Run.invariant (I := fun versions => ∀ db ∈ versions.head?, Ready db) ?_ hrun ?_
  · intro before l after hbefore hstep db hdb
    cases hstep.1 with
    | @step db₀ _ older l h =>
      cases hdb
      have hlast : l = .other → Ready db := fun hl => hstep.2 (congrArg SystemLabel.step hl) db rfl
      exact ready_step (hbefore db₀ rfl) h hlast
    | @pass db₀ older =>
      cases hdb
      exact ready_pass (hbefore db₀ rfl)
  · intro db hdb
    cases hdb
    exact hready

/-- In every version the system reaches, a pass that returns leaves each parent it went through
with counters that are those of its targets and a state that follows from them, or in need of
intervention and otherwise as it was; and it leaves every other parent alone. -/
theorem pass_counts {start : Database} {labels : List SystemLabel} {u : Unit}
    (hready : Ready start) (hrun : Run (ReadyStep R E clockSkew) [start] labels (db :: older))
    (hpass : pass R E db db = (.ok u, db')) :
    (∀ p ∈ pending db, Counted p db' ∨ Intervened E p db db') ∧
      ∀ p, p ∉ pending db → Kept p db db' := by
  obtain ⟨limits, hallows⟩ := exists_allows (pending db) db
  have hpassed := pass_passed (ready_run hready hrun db rfl) hallows hpass
  exact ⟨hpassed.parents, hpassed.others⟩

namespace Sample

/-- The sample tables are ready. -/
theorem ready_database : Ready database :=
  ⟨linked_database, by decide, fun _ ht _ => by rw [List.mem_singleton.mp ht]; rfl⟩

/-- The sample has one pending parent. -/
theorem pending_database : pending database = [parentId] := by decide

/-- The child is there, so the pass returned. -/
theorem pass_database : pass runtime environment database database
    = (.ok (), (pass runtime environment database database).2) := by
  cases hanswer : (pass runtime environment database database).1 with
  | ok u => exact pass_ok hanswer
  | error e =>
    obtain ⟨op, hop, -⟩ := started
    rw [pass_error hanswer] at hop
    exact absurd hop List.not_mem_nil

end Sample

open FrappeBulk.Sample in
/-- A pass over the sample starts its child and counts it. -/
theorem pass_counts_sample :
    Counted parentId (pass runtime environment database database).2 ∨
      Intervened environment parentId database (pass runtime environment database database).2 := by
  have hpending : parentId ∈ pending database := by
    rw [pending_database]
    exact List.mem_cons_self
  have hrun : Run (ReadyStep runtime environment 60) [database] [] [database] := .nil _
  exact (pass_counts ready_database hrun pass_database).1 parentId hpending

/-- In every version the system reaches, a pass takes the work in flight above none of the bounds
that allow the policies of all of its parents, unless it was there already: in all, on each agent
and on each bench. -/
theorem pass_within {start : Database} {labels : List SystemLabel} {limits : Limits}
    (hready : Ready start) (hrun : Run (ReadyStep R E clockSkew) [start] labels (db :: older))
    (hallows : AllowsAll limits (pending db) db) :
    Limited limits (workload db) (workload (pass R E db db).2) := by
  cases hpass : pass R E db db with
  | mk answer db' =>
    cases answer with
    | ok u => exact (pass_passed (ready_run hready hrun db rfl) hallows hpass).limited
    | error e =>
      have hsame : (pass R E db db).2 = db := pass_error (congrArg Prod.fst hpass)
      rw [hpass] at hsame
      rw [show db' = db from hsame]
      exact .refl _ _

open FrappeBulk.Sample in
/-- A pass over the sample starts its child, within the policy of its parent. -/
theorem pass_within_sample : Limited ⟨2, 1, 1⟩ (workload database)
    (workload (pass runtime environment database database).2) := by
  have hallows : AllowsAll ⟨2, 1, 1⟩ (pending database) database := by
    intro p hp row hrow
    rw [pending_database, List.mem_singleton] at hp
    subst hp
    cases hrow
    exact ⟨by decide, by decide, by decide⟩
  have hrun : Run (ReadyStep runtime environment 60) [database] [] [database] := .nil _
  exact pass_within ready_database hrun hallows

end Runs

end FrappeBulk
end FrappeController
