import Mathlib.Data.String.Basic
import FrappeController.CommandSnapshot
import FrappeController.ControllerStore
import FrappeController.Library.Lease
import FrappeController.OperationLifecycle

/-!
# Leases of an operation do not overlap

Both stores lease a command for its validity and the allowance for the clocks, and lease it
again only once that has passed. A queued acknowledgement keeps the lease; a running or
terminal result ends the leasing of its operation for good.

Each store is followed through the slot of one operation (`Lease.Slot`): every transaction
moves it as `Lease.Move` says, and the library draws the conclusion about runs.
-/

namespace FrappeController
namespace LeaseExclusivity

/-- Polls of a system deliver each operation at disjoint times, and not after a running or
terminal result of it was recorded: from any state `start` admits, over any run. -/
structure Exclusive {σ Λ : Type} (clockSkew : ℕ) (start : σ → Prop) (step : σ → Λ → σ → Prop)
    (delivers : DateTime → List (String × Json) → σ → σ → Prop) (records : σ → σ → Prop) :
    Prop where
  /-- The second of two deliveries is issued when the first has expired for every clock. -/
  disjoint : ∀ {s₀ s₁ s₂ s₃ ls now env now' env'}, start s₀ → delivers now env s₀ s₁ →
    Run step s₁ ls s₂ → delivers now' env' s₂ s₃ →
      ∃ expires, Json.get env "expires_at" = .str (timestamp expires) ∧
        Json.get env' "issued_at" = .str (timestamp now') ∧ expires.addSeconds clockSkew ≤ now'
  /-- No delivery follows a recorded result. -/
  final : ∀ {s₀ s₁ s₂ s₃ ls now env}, start s₀ → records s₀ s₁ → Run step s₁ ls s₂ →
    ¬ delivers now env s₂ s₃

/-! ## A store through the slot of one operation -/

section Slots

variable {σ Λ τ : Type} [Preorder τ] {clockSkew : ℕ} {start : σ → Prop} {step : σ → Λ → σ → Prop}
  {delivers : DateTime → List (String × Json) → σ → σ → Prop} {records : σ → σ → Prop}

/-- The slot follows the store. An instant that is `storable` is kept as `stored` says. -/
structure Tracks (clockSkew : ℕ) (start : σ → Prop) (step : σ → Λ → σ → Prop)
    (delivers : DateTime → List (String × Json) → σ → σ → Prop) (records : σ → σ → Prop)
    (slot : σ → Lease.Slot τ) (storable : DateTime → Prop) (stored : DateTime → τ) : Prop where
  ordered : ∀ {a b}, storable a → storable b → stored a ≤ stored b → a ≤ b
  keeps : ∀ s l t, start s → step s l t → start t
  moves : ∀ s l t, start s → step s l t → ∃ e, Lease.Move (slot s) e (slot t)
  delivery : ∀ {now env s t}, start s → delivers now env s t → start t ∧ storable now ∧
    ∃ expires, storable (expires.addSeconds clockSkew) ∧
      Json.get env "issued_at" = .str (timestamp now) ∧
      Json.get env "expires_at" = .str (timestamp expires) ∧
      Lease.Move (slot s) (.lease (stored now) (stored (expires.addSeconds clockSkew))) (slot t)
  record : ∀ {s t}, start s → records s t → start t ∧ Lease.Move (slot s) .close (slot t)

/-- A store whose slot takes the moves of a lease delivers exclusively. -/
theorem Tracks.exclusive {slot : σ → Lease.Slot τ} {storable : DateTime → Prop}
    {stored : DateTime → τ}
    (h : Tracks clockSkew start step delivers records slot storable stored) :
    Exclusive clockSkew start step delivers records where
  disjoint := fun hs hfirst hrun hsecond => by
    obtain ⟨hs₁, -, expires, hstorable, -, hexpires, hmove⟩ := h.delivery hs hfirst
    have hs₂ := Run.invariant h.keeps hrun hs₁
    obtain ⟨-, hstorable', expires', -, hissued', -, hmove'⟩ := h.delivery hs₂ hsecond
    obtain ⟨es, hslots⟩ := Run.project slot h.keeps h.moves hrun hs₁
    have hle := Lease.lease_le_of_run hmove hslots hmove'
    exact ⟨expires, hexpires, hissued', h.ordered hstorable hstorable' hle⟩
  final := fun hs hrecord hrun hdelivery => by
    obtain ⟨hs₁, hclose⟩ := h.record hs hrecord
    have hs₂ := Run.invariant h.keeps hrun hs₁
    obtain ⟨-, -, expires, -, -, -, hmove⟩ := h.delivery hs₂ hdelivery
    obtain ⟨es, hslots⟩ := Run.project slot h.keeps h.moves hrun hs₁
    exact Lease.not_lease_of_closed hclose hslots hmove

end Slots

/-! ## The Frappe store -/

section Frappe

open Dispatcher FrappeStore FrappeRepository Lifecycle

variable (R : Runtime) (lifetime clockSkew : ℕ)

/-- Where an operation row stands. -/
def rowSlot (op : ControllerOperation) : Lease.Slot DateTime :=
  match op.state, op.leaseExpiresAt with
  | .awaitingApproval, _ => .free
  | .queued, _ => .free
  | .leased, some expiry => .held expiry
  | _, _ => .closed

/-- The row of an operation. -/
def rowOf (operationId : String) (db : Database) : Option ControllerOperation :=
  db.operations.find? fun op => op.operationId == operationId

/-- Where an operation stands. -/
def slot (operationId : String) (db : Database) : Lease.Slot DateTime :=
  ((rowOf operationId db).map rowSlot).getD .free

/-- A poll of some agent at `now` delivers `env` for the operation. -/
def Delivers (operationId : String) (now : DateTime) (env : List (String × Json))
    (history history' : List Database) : Prop :=
  ∃ db older db' agentId allowedOperationTypes commandFilter locked,
    history = db :: older ∧ history' = db' :: db :: older ∧
    leaseCommand R lifetime clockSkew agentId now allowedOperationTypes commandFilter locked db =
      .ok (some env) db' ∧ Json.get env "operation_id" = .str operationId

/-- `commit_result` records a running or terminal result of the operation. -/
def Records (operationId : String) (history history' : List Database) : Prop :=
  ∃ db older op r state errorCode, history = db :: older ∧
    history' = record op r state errorCode db :: db :: older ∧
    op ∈ db.operations ∧ op.operationId = operationId ∧
    (state = .running ∨ state.terminal = true)

/-- The transactions on commands: dispatches, polls, results and event batches. -/
def CommandStep (history : List Database) (l : Lifecycle.Label) (history' : List Database) : Prop :=
  Step R lifetime clockSkew history l history' ∧ l ≠ .other

/-- The newest version satisfies the schema. -/
def Stored (history : List Database) : Prop := ∃ db older, history = db :: older ∧ Schema db

/-- The slot in the newest version. -/
def newestSlot (operationId : String) (history : List Database) : Lease.Slot DateTime :=
  (history.head?.map (slot operationId)).getD .free

/-! ### What a write does to the slot -/

variable {R lifetime clockSkew} {operationId : String}

/-- The slot of an operation is that of its row. -/
theorem slot_of_row {db : Database} {op : ControllerOperation}
    (h : rowOf operationId db = some op) : slot operationId db = rowSlot op := by
  rw [slot, h]
  rfl

/-- Under the schema a row is the row of its id. -/
theorem rowOf_of_mem {db : Database} (hschema : Schema db) {op : ControllerOperation}
    (hop : op ∈ db.operations) (hid : op.operationId = operationId) :
    rowOf operationId db = some op := by
  cases hrow : rowOf operationId db with
  | none =>
    have hnone := List.find?_eq_none.mp hrow op hop
    exact absurd (beq_iff_eq.mpr hid) hnone
  | some op' =>
    have hid' : op'.operationId = operationId := by simpa using List.find?_some hrow
    have hmem := List.mem_of_find?_eq_some hrow
    rw [List.inj_on_of_nodup_map hschema.ids hmem hop (hid'.trans hid.symm)]

/-- The row of an operation is in the table. -/
theorem rowOf_eq_some {db : Database} {op : ControllerOperation}
    (h : rowOf operationId db = some op) : op ∈ db.operations ∧ op.operationId = operationId :=
  ⟨List.mem_of_find?_eq_some h, by simpa using List.find?_some h⟩

/-- Moving one operation on changes its row only. -/
theorem rowOf_advance {db : Database} {name : String} {bulkTarget : Option String}
    {f : ControllerOperation → ControllerOperation} {g : OperationTarget → OperationTarget}
    {h : BulkOperationTarget → BulkOperationTarget}
    (hkeep : ∀ op, (f op).operationId = op.operationId) :
    rowOf operationId (db.advance name bulkTarget f g h) =
      (rowOf operationId db).map fun op => if op.name = name then f op else op := by
  have hoperations : (db.advance name bulkTarget f g h).operations =
      Table.setValue name f db.operations := by
    cases bulkTarget <;> rfl
  rw [rowOf, hoperations]
  exact Table.find?_update _ _ (fun op => by rw [hkeep]) _

/-- A write moves the slot of the operation whose row it writes. -/
theorem slot_advance {db : Database} {name : String} {bulkTarget : Option String}
    {f : ControllerOperation → ControllerOperation} {g : OperationTarget → OperationTarget}
    {h : BulkOperationTarget → BulkOperationTarget}
    (hkeep : ∀ op, (f op).operationId = op.operationId) :
    slot operationId (db.advance name bulkTarget f g h) = slot operationId db ∨
      ∃ op, rowOf operationId db = some op ∧ op.name = name ∧
        slot operationId (db.advance name bulkTarget f g h) = rowSlot (f op) := by
  have hrow : rowOf operationId (db.advance name bulkTarget f g h) = _ := rowOf_advance hkeep
  cases hop : rowOf operationId db with
  | none =>
    rw [hop] at hrow
    left
    rw [slot, slot, hrow, hop]
    rfl
  | some op =>
    rw [hop, Option.map_some] at hrow
    by_cases hname : op.name = name
    · rw [if_pos hname] at hrow
      exact .inr ⟨op, rfl, hname, slot_of_row hrow⟩
    · rw [if_neg hname] at hrow
      exact .inl ((slot_of_row hrow).trans (slot_of_row hop).symm)

/-- An event batch does not. -/
theorem slot_of_eventsOnly {db db' : Database} (h : EventsOnly db db') :
    slot operationId db' = slot operationId db := by
  have hrow : ∀ db : Database, slot operationId db =
      (((db.operations.map (moveCursor 0)).find? fun op => op.operationId == operationId).map
        rowSlot).getD .free := by
    intro db
    rw [List.find?_map, Option.map_map]
    rfl
  rw [hrow db', hrow db, h.operations]

/-- A lease ends no earlier than it begins. -/
theorem le_addSeconds_addSeconds (now : DateTime) (lifetime clockSkew : ℕ) :
    now ≤ (now.addSeconds lifetime).addSeconds clockSkew := by
  show now.micros ≤ now.micros + lifetime * 1000000 + clockSkew * 1000000
  omega

/-- A command that can be leased is available. -/
theorem available_of_leasable {op : ControllerOperation} {now : DateTime}
    (h : leasableState op now = true) : (rowSlot op).Available now := by
  simp only [leasableState, Bool.and_eq_true, Bool.or_eq_true, beq_iff_eq] at h
  unfold rowSlot
  rcases h.2 with hqueued | ⟨hleased, hexpired⟩
  · rw [hqueued]
    trivial
  · rw [hleased]
    cases hexpiry : op.leaseExpiresAt with
    | none =>
      rw [hexpiry] at hexpired
      cases hexpired
    | some expiry =>
      rw [hexpiry] at hexpired
      show expiry ≤ now
      simpa using hexpired

/-- The later version shows the row under the same name, and its slot unless it closed. -/
structure Settles (operationId : String) (db db' : Database) : Prop where
  name : (rowOf operationId db').map (·.name) = (rowOf operationId db).map (·.name)
  slot : slot operationId db' = slot operationId db ∨ slot operationId db' = .closed

/-- A quarantine closes one slot. -/
theorem settles_quarantine (c : Candidate) (now : DateTime) (db : Database) :
    Settles operationId db (quarantine c now db) where
  name := by
    have hrow : rowOf operationId (quarantine c now db) = _ := rowOf_advance fun _ => rfl
    rw [hrow, Option.map_map]
    congr 1
    funext op
    show (if op.name = c.name then failOperation now op else op).name = op.name
    split <;> rfl
  slot := by
    have hwrite : slot operationId (quarantine c now db) = slot operationId db ∨
        ∃ op, rowOf operationId db = some op ∧ op.name = c.name ∧
          slot operationId (quarantine c now db) = rowSlot (failOperation now op) :=
      slot_advance fun _ => rfl
    rcases hwrite with hsame | ⟨op, -, -, hclosed⟩
    · exact .inl hsame
    · exact .inr hclosed

/-- Slots stay or close over two writes. -/
theorem Settles.trans {db db' db'' : Database} (h : Settles operationId db db')
    (h' : Settles operationId db' db'') : Settles operationId db db'' where
  name := h'.name.trans h.name
  slot := by
    rcases h'.slot with hsame | hclosed
    · rw [hsame]
      exact h.slot
    · exact .inr hclosed

/-- The scan of a poll quarantines. -/
theorem settles_firstValid {db db' : Database} {commandFilter : Candidate → Bool} {now : DateTime}
    {queue : List Candidate} {found : Option (Candidate × List (String × Json))}
    (h : firstValid R lifetime commandFilter now queue db = .ok found db') :
    Settles operationId db db' := by
  induction queue generalizing db with
  | nil =>
    cases h
    exact ⟨rfl, .inl rfl⟩
  | cons c rest ih =>
    cases hfilter : commandFilter c with
    | false =>
      rw [firstValid_cons_skip c rest hfilter] at h
      exact ih h
    | true =>
      rw [firstValid_cons rfl c rest hfilter] at h
      split at h
      · cases h
        exact ⟨rfl, .inl rfl⟩
      · exact (settles_quarantine c now db).trans (ih h)
      · cases h

/-- The scan finds the row of the operation its command names. -/
theorem delivered_row {db : Database} (hschema : Schema db) {agentId : String} {now : DateTime}
    {allowedOperationTypes : Option (List String)} {commandFilter : Candidate → Bool}
    {locked : List String} {c : Candidate} {env : List (String × Json)} {db' : Database}
    (h : firstValid R lifetime commandFilter now
      (leasable db agentId allowedOperationTypes locked now) db = .ok (some (c, env)) db') :
    ∃ op ∈ db.operations, op.name = c.name ∧ leasableState op now = true ∧
      Json.get env "operation_id" = .str op.operationId := by
  have hfound := (firstValid_sound rfl h).1.symm
  have hqueued := List.mem_of_mem_filter (mem_of_headOfLine R lifetime hfound)
  obtain ⟨op, hop, hname, -, hleasable⟩ := mem_leasable hqueued
  obtain ⟨fields, -, hvalid⟩ := Transaction.bind_eq_ok.mp (validation_of_headOfLine R lifetime hfound)
  obtain ⟨_, hsnapshot, henv⟩ := Transaction.bind_eq_ok.mp hvalid
  cases henv
  obtain ⟨row, payload, _, _, _, hrow, -, hexpected, -⟩ := validateSnapshot_eq_ok.mp hsnapshot
  obtain ⟨hrowOp, hrowName⟩ := Dispatcher.operationRow?_eq_some hrow
  refine ⟨op, hop, hname.symm, hleasable, ?_⟩
  have hsame : row.op = op := Table.eq_of_mem hschema.names hrowOp hop (hrowName.trans hname)
  have hid := hexpected ("operation_id", .str row.op.operationId) (by simp [expected])
  rw [hsame] at hid
  rw [stamp, Json.get_set_of_ne _ _ (by decide), Json.get_set_of_ne _ _ (by decide)]
  exact Json.eq_str_of_pyEq hid

/-- What a stamped command says of its validity. -/
theorem get_stamp (lifetime : ℕ) (now : DateTime) (env : List (String × Json)) :
    Json.get (stamp lifetime now env) "issued_at" = .str (timestamp now) ∧
      Json.get (stamp lifetime now env) "expires_at" = .str (timestamp (now.addSeconds lifetime)) ∧
      Json.get (stamp lifetime now env) "operation_id" = Json.get env "operation_id" := by
  rw [stamp, Json.get_set_self, Json.get_set_of_ne _ _ (by decide), Json.get_set_self,
    Json.get_set_of_ne _ _ (by decide), Json.get_set_of_ne _ _ (by decide)]
  exact ⟨rfl, rfl, rfl⟩

/-- A poll leases the slot of the operation it delivers; the slots of the others stay or close. -/
theorem poll_move {db db' : Database} (hschema : Schema db) {agentId : String} {now : DateTime}
    {allowedOperationTypes : Option (List String)} {commandFilter : Candidate → Bool}
    {locked : List String} {result : Option (List (String × Json))}
    (h : leaseCommand R lifetime clockSkew agentId now allowedOperationTypes commandFilter locked
      db = .ok result db') :
    (∃ env, result = some env ∧ Json.get env "issued_at" = .str (timestamp now) ∧
      Json.get env "expires_at" = .str (timestamp (now.addSeconds lifetime)) ∧
      Lease.Move (slot operationId db) (.lease now ((now.addSeconds lifetime).addSeconds clockSkew))
        (slot operationId db')) ∨
    ((∀ env, result = some env → Json.get env "operation_id" ≠ .str operationId) ∧
      Lease.Move (slot operationId db) .other (slot operationId db')) := by
  -- what only stays or closes is a move without a delivery
  have hother : ∀ {slot slot' : Lease.Slot DateTime}, slot' = slot ∨ slot' = .closed →
      Lease.Move slot .other slot' := by
    rintro slot slot' (rfl | rfl)
    · exact .stay _
    · exact .drop _
  rcases leaseCommand_eq_ok h with ⟨hresult, rfl⟩ | ⟨found, db₁, hscan, hlease⟩
  · exact .inr ⟨fun env henv => (by rw [hresult] at henv; cases henv), .stay _⟩
  -- the scan quarantines before it finds a command, and closes those slots only
  · have hsettles : Settles operationId db db₁ := settles_firstValid hscan
    rcases hlease with ⟨-, hresult, hdb⟩ | ⟨c, env, hfound, hresult, hdb⟩
    · rw [hdb]
      exact .inr ⟨fun env henv => (by rw [hresult] at henv; cases henv), hother hsettles.slot⟩
    · rw [hfound] at hscan
      obtain ⟨op, hop, hname, hleasable, hid⟩ := delivered_row hschema hscan
      obtain ⟨hissued, hexpires, hsameId⟩ := get_stamp lifetime now env
      by_cases hsame : op.operationId = operationId
      · -- its row is still there under the same name, so the lease writes it
        have hrow := rowOf_of_mem hschema hop hsame
        obtain ⟨op₁, hrow₁, hname₁⟩ : ∃ op₁, rowOf operationId db₁ = some op₁ ∧ op₁.name = op.name := by
          have hnames := hsettles.name
          rw [hrow] at hnames
          exact Option.map_eq_some_iff.mp hnames
        have hwritten : rowOf operationId db' = some (lease lifetime clockSkew now op₁) := by
          rw [hdb, rowOf_advance (f := lease lifetime clockSkew now) fun _ => rfl, hrow₁, Option.map_some, if_pos (hname₁.trans hname)]
        refine .inl ⟨_, hresult, hissued, hexpires, ?_⟩
        rw [slot_of_row hrow, slot_of_row hwritten]
        exact .lease (available_of_leasable hleasable) (le_addSeconds_addSeconds now lifetime clockSkew)
      · refine .inr ⟨fun env' henv => ?_, hother ?_⟩
        · rw [hresult] at henv
          cases henv
          rw [hsameId, hid]
          exact fun heq => hsame (Json.str.inj heq)
        · have hwrite : slot operationId db' = slot operationId db₁ ∨
              ∃ op₁, rowOf operationId db₁ = some op₁ ∧ op₁.name = c.name ∧
                slot operationId db' = rowSlot (lease lifetime clockSkew now op₁) := by
            rw [hdb]
            exact slot_advance fun _ => rfl
          rcases hwrite with hkept | ⟨op₁, hrow₁, hname₁, -⟩
          · rw [hkept]
            exact hsettles.slot
          · -- the row of that name is the one delivered
            obtain ⟨op₀, hrow₀, hname₀⟩ : ∃ op₀, rowOf operationId db = some op₀ ∧ op₀.name = c.name := by
              have hnames := hsettles.name
              rw [hrow₁, Option.map_some, hname₁] at hnames
              exact Option.map_eq_some_iff.mp hnames.symm
            obtain ⟨hop₀, hid₀⟩ := rowOf_eq_some hrow₀
            have heq := Table.eq_of_mem hschema.names hop hop₀ (hname.trans hname₀.symm)
            exact absurd (heq ▸ hid₀) hsame

/-- The states a result may report, and those recorded for it. -/
theorem state_of_header {value : Json} {fields : List (String × Json)} {status : OperationState}
    {errorCode : Option String}
    (h : Ingestion.resultHeader value = .ok (fields, status, errorCode)) :
    status = .queued ∨ status = .running ∨ status.terminal = true := by
  obtain ⟨_, -, -, hreportable⟩ := resultHeader_status h
  simpa [Ingestion.reportable, or_assoc] using hreportable

/-- A recorded state is queued, running or terminal. -/
theorem state_of_submission {history : List Database} {db : Database} {body : Json}
    {op : ControllerOperation} {r : IngestedResult} {state : OperationState}
    (h : Submission R history db body op r state) :
    state = .queued ∨ state = .running ∨ state.terminal = true := by
  obtain ⟨fields, errorCode, hheader⟩ := h.report.header
  rcases h.recorded with hstatus | ⟨-, hcode⟩
  · rw [hstatus]
    exact state_of_header hheader
  · rw [hcode]
    exact .inr (.inr rfl)

/-- A queued acknowledgement leaves the slot of its operation alone, any other result closes it. -/
theorem slot_recordOperation (op : ControllerOperation) (r : IngestedResult)
    (state : OperationState) (errorCode : Option String) :
    (state = .queued → rowSlot (recordOperation r state errorCode op) = rowSlot op) ∧
      (state = .running ∨ state.terminal = true →
        rowSlot (recordOperation r state errorCode op) = .closed) := by
  refine ⟨fun hqueued => ?_, fun hended => ?_⟩
  · subst hqueued
    rfl
  · have hne : state ≠ .queued := by
      rintro rfl
      simp [OperationState.terminal] at hended
    have hstate : (recordOperation r state errorCode op).state = state := by
      rw [recordOperation, stateAfter, if_neg hne]
    rw [rowSlot, hstate]
    rcases hended with hrunning | hterminal
    · rw [hrunning]
    · revert hterminal
      cases state <;> simp [OperationState.terminal]

/-- A recorded result closes the slot of its operation, except for a queued one. -/
theorem slot_record {db : Database} (op : ControllerOperation) (r : IngestedResult)
    (state : OperationState) (errorCode : Option String)
    (hstate : state = .queued ∨ state = .running ∨ state.terminal = true) :
    slot operationId (record op r state errorCode db) = slot operationId db ∨
      slot operationId (record op r state errorCode db) = .closed := by
  have hwrite : slot operationId (record op r state errorCode db) = slot operationId db ∨
      ∃ op₁, rowOf operationId db = some op₁ ∧ op₁.name = op.name ∧
        slot operationId (record op r state errorCode db) =
          rowSlot (recordOperation r state errorCode op₁) := slot_advance fun _ => rfl
  rcases hwrite with hsame | ⟨op₁, hrow, -, hslot⟩
  · exact .inl hsame
  · obtain ⟨hqueued, hended⟩ := slot_recordOperation op₁ r state errorCode
    rcases hstate with hstate | hstate
    · left
      rw [hslot, hqueued hstate, slot_of_row hrow]
    · right
      rw [hslot, hended hstate]

/-- A dispatch makes its operation available to a first poll. -/
theorem slot_dispatch {db db' : Database} {name : String} {now : DateTime}
    {env : List (String × Json)} (hschema : Schema db)
    (h : dispatch R lifetime name now db = .ok env db') :
    slot operationId db' = slot operationId db := by
  obtain ⟨-, ⟨rfl, -⟩ | ⟨op, digest, text, hop, hstate, -, -, -, hdb⟩⟩ := dispatch_eq_ok h
  · rfl
  · have hwrite : slot operationId db' = slot operationId db ∨
        ∃ op₁, rowOf operationId db = some op₁ ∧ op₁.name = name ∧
          slot operationId db' = rowSlot (queue text digest op₁) := by
      rw [hdb]
      exact slot_advance fun _ => rfl
    rcases hwrite with hsame | ⟨op₁, hrow, hname, hslot⟩
    · exact hsame
    · have heq : op₁ = op := Table.eq_of_mem hschema.names (rowOf_eq_some hrow).1
        (Table.get?_mem hop) (hname.trans (Table.get?_name hop).symm)
      rw [hslot, slot_of_row hrow, heq]
      show Lease.Slot.free = rowSlot op
      rw [rowSlot, hstate]

/-! ### The slot over runs -/

variable (R lifetime clockSkew operationId)

/-- Every transaction of the Frappe store is one move of the slot. -/
theorem frappe_moves (history : List Database) (l : Lifecycle.Label) (history' : List Database)
    (hstored : Stored history) (h : CommandStep R lifetime clockSkew history l history') :
    ∃ e, Lease.Move (newestSlot operationId history) e (newestSlot operationId history') := by
  obtain ⟨db, older, rfl, hschema⟩ := hstored
  obtain ⟨hstep, hlabel⟩ := h
  cases hstep with
  | @dispatch _ _ name now =>
    refine ⟨.other, ?_⟩
    show Lease.Move (slot operationId db) .other
      (slot operationId (Transaction.committed (dispatch R lifetime name now) db))
    -- a dispatch that raises is rolled back
    cases hdispatch : dispatch R lifetime name now db with
    | ok env db' =>
      rw [Transaction.committed_of_ok hdispatch, slot_dispatch hschema hdispatch]
      exact .stay _
    | error e db' =>
      rw [Transaction.committed_of_error hdispatch]
      exact .stay _
  | @lease _ _ agentId now allowedOperationTypes commandFilter locked =>
    show ∃ e, Lease.Move (slot operationId db) e (slot operationId (Transaction.committed
      (leaseCommand R lifetime clockSkew agentId now allowedOperationTypes commandFilter locked) db))
    cases hlease : leaseCommand R lifetime clockSkew agentId now allowedOperationTypes commandFilter
        locked db with
    | ok result db' =>
      rw [Transaction.committed_of_ok hlease]
      -- either the poll delivers this operation, or its slot stays or closes
      rcases poll_move hschema hlease with ⟨_, -, -, -, hmove⟩ | ⟨-, hmove⟩
      · exact ⟨_, hmove⟩
      · exact ⟨_, hmove⟩
    | error e db' =>
      rw [Transaction.committed_of_error hlease]
      exact ⟨.other, .stay _⟩
  | @events _ _ body receivedAt views hviews =>
    refine ⟨.other, ?_⟩
    show Lease.Move (slot operationId db) .other
      (slot operationId (serveEvents R body receivedAt views db).2)
    -- events write no operation
    have hsame : EventsOnly db (serveEvents R body receivedAt views db).2 := by
      unfold serveEvents serve
      split
      · rename_i hok
        exact ingestEvents_eventsOnly hok
      · exact .refl db
    rw [slot_of_eventsOnly hsame]
    exact .stay _
  | @result _ _ body receivedAt views hviews =>
    refine ⟨.other, ?_⟩
    show Lease.Move (slot operationId db) .other
      (slot operationId (serveResult R body receivedAt views db).2)
    unfold serveResult serve
    split
    · rename_i hok
      rcases ingestResult_record hviews hok with hsame | ⟨op, hop, state, errorCode, hsub, hrecord⟩
      · rw [hsame]
        exact .stay _
      · rw [hrecord]
        -- a queued acknowledgement leaves the slot open, any other result closes it
        rcases slot_record op _ state errorCode (state_of_submission hsub) with hsame | hclosed
        · rw [hsame]
          exact .stay _
        · rw [hclosed]
          exact .drop _
    · exact .stay _
  | other => exact absurd rfl hlabel

/-- The slot follows the Frappe store. -/
theorem frappe_tracks : Tracks clockSkew Stored (CommandStep R lifetime clockSkew)
    (Delivers R lifetime clockSkew operationId) (Records operationId) (newestSlot operationId)
    (fun _ => True) id where
  ordered := fun _ _ h => h
  keeps := fun history l history' hstored h => by
    obtain ⟨db, older, rfl, hschema⟩ := hstored
    obtain ⟨db', rfl, hschema'⟩ := schema_step hschema h.1
    exact ⟨db', _, rfl, hschema'⟩
  moves := frappe_moves R lifetime clockSkew operationId
  delivery := fun {now env history history'} hstored h => by
    obtain ⟨db, older, db', agentId, types, commandFilter, locked, rfl, rfl, hlease, hid⟩ := h
    obtain ⟨db₀, older₀, heq, hschema⟩ := hstored
    cases heq
    have hwrites : Writes R lifetime clockSkew [] .other db db' := lease_writes hlease
    have hschema' := schema_writes hschema hwrites
    refine ⟨⟨db', _, rfl, hschema'⟩, trivial, now.addSeconds lifetime, trivial, ?_⟩
    rcases poll_move hschema hlease with ⟨env', henv, hissued, hexpires, hmove⟩ | ⟨hnot, -⟩
    · cases henv
      exact ⟨hissued, hexpires, hmove⟩
    · exact absurd hid (hnot env rfl)
  record := fun {history history'} hstored h => by
    obtain ⟨db, older, op, r, state, errorCode, rfl, rfl, hop, hid, hended⟩ := h
    obtain ⟨db₀, older₀, heq, hschema⟩ := hstored
    cases heq
    have hschema' : Schema (record op r state errorCode db) := schema_advance hschema
      ⟨fun _ => ⟨rfl, rfl, rfl⟩, fun _ => ⟨rfl, rfl⟩, fun _ => rfl⟩
    refine ⟨⟨_, _, rfl, hschema'⟩, ?_⟩
    have hrow : rowOf operationId (record op r state errorCode db) =
        some (recordOperation r state errorCode op) := by
      rw [record, rowOf_advance (f := recordOperation r state errorCode) fun _ => rfl, rowOf_of_mem hschema hop hid, Option.map_some,
        if_pos rfl]
    show Lease.Move (slot operationId db) .close (slot operationId (record op r state errorCode db))
    rw [slot_of_row hrow, (slot_recordOperation op r state errorCode).2 hended]
    exact .close _

end Frappe

/-! ## The reference store -/

section Reference

open ControllerStore
open Transaction (bind_apply_eq_ok query_eq_ok)

variable (R : Runtime) (lifetime clockSkew : ℕ)

/-- A call of the reference store. -/
inductive Call where
  | enqueue (audience : String) (envelope : List (String × Json)) (now : DateTime)
  | lease (agentId : String) (now : DateTime)
  | ingest (agentId operationId : String) (fields : List (String × Json)) (now : DateTime)

/-- The store after a call. -/
def CallStep (store : Store) (call : Call) (store' : Store) : Prop :=
  match call with
  | .enqueue audience envelope now =>
    store' = Transaction.committed (enqueueApprovedCommand R audience envelope now) store
  | .lease agentId now =>
    store' = Transaction.committed (ControllerStore.leaseCommand R lifetime clockSkew agentId now) store
  | .ingest agentId operationId fields now =>
    store' = Transaction.committed (ingestResult R agentId operationId fields now) store

/-- A poll of some agent at `now` delivers `env` for the operation. -/
def LeaseDelivers (operationId : String) (now : DateTime) (env : List (String × Json))
    (store store' : Store) : Prop :=
  ∃ agentId, ControllerStore.leaseCommand R lifetime clockSkew agentId now store =
    .ok (some (operationId, env)) store'

/-- `ingest_result` accepts a new running or terminal result of the operation. -/
def IngestRecords (operationId : String) (store store' : Store) : Prop :=
  ∃ agentId fields now text state, ingestResult R agentId operationId fields now store =
    .ok true store' ∧ checkResult R fields = .ok (text, state) ∧
      (state = .running ∨ state.terminal = true)

/-- Operation ids are the primary key. -/
def KeyedStore (store : Store) : Prop := Table.Unique store.commands

/-- Where a command stands; its expiry is text. -/
def commandSlot (row : Command) : Lease.Slot String :=
  match row.status, row.leaseExpiresAt with
  | .approved, _ => .free
  | .leased, some expiry => .held expiry
  | _, _ => .closed

def storeSlot (operationId : String) (store : Store) : Lease.Slot String :=
  ((Table.get? store.commands operationId).map commandSlot).getD .free

variable {R lifetime clockSkew} {operationId : String}

/-- The slot of an operation is that of its command. -/
theorem storeSlot_of_row {store : Store} {row : Command}
    (h : Table.get? store.commands operationId = some row) :
    storeSlot operationId store = commandSlot row := by
  rw [storeSlot, h]
  rfl

/-! ### What each call does -/

/-- A poll leases a command of the table that can be leased. -/
theorem mem_next? {store : Store} {agentId current : String} {row : Command}
    (h : next? store agentId current = some row) :
    row ∈ store.commands ∧ ControllerStore.leasable current row = true := by
  have hmem := List.mem_of_mem_head? (Option.mem_def.mpr h)
  rw [List.mem_insertionSort, List.mem_filter, Bool.and_eq_true] at hmem
  exact ⟨hmem.1, hmem.2.2⟩

/-- An instant is moved where the calendar has the result. -/
theorem plusSeconds_eq_ok {value later : DateTime} {n : ℕ}
    (h : plusSeconds value n = .ok later) :
    later = value.addSeconds n ∧ later.representable = true := by
  unfold plusSeconds at h
  split at h
  · rename_i hrepresentable
    cases h
    exact ⟨rfl, hrepresentable⟩
  · cases h

/-- A poll of the reference store that returns. -/
theorem leaseCommand_cases {store store' : Store} {agentId : String} {now : DateTime}
    {result : Option (String × List (String × Json))}
    (h : ControllerStore.leaseCommand R lifetime clockSkew agentId now store = .ok result store') :
    (result = none ∧ store' = store) ∨
      ∃ row stored text, row ∈ store.commands ∧
        ControllerStore.leasable (dbTime now) row = true ∧
        ((now.addSeconds lifetime).addSeconds clockSkew).representable = true ∧
        result = some (row.operationId,
          Json.set (Json.set stored "issued_at" (.str (timestamp now))) "expires_at"
            (.str (timestamp (now.addSeconds lifetime)))) ∧
        store' = store.setCommand row.operationId (ControllerStore.lease
          (dbTime ((now.addSeconds lifetime).addSeconds clockSkew)) text (dbTime now)) := by
  obtain ⟨start, store₁, hget, h₁⟩ := bind_apply_eq_ok.mp h
  cases hget
  cases hnext : next? store agentId (dbTime now) with
  | none =>
    rw [hnext] at h₁
    cases h₁
    exact .inl ⟨rfl, rfl⟩
  | some row =>
    rw [hnext] at h₁
    obtain ⟨stored, store₂, hquery, h₂⟩ := bind_apply_eq_ok.mp h₁
    obtain ⟨-, rfl⟩ := query_eq_ok.mp hquery
    obtain ⟨expires, store₃, hquery, h₃⟩ := bind_apply_eq_ok.mp h₂
    obtain ⟨hexpires, rfl⟩ := query_eq_ok.mp hquery
    obtain ⟨leaseExpires, store₄, hquery, h₄⟩ := bind_apply_eq_ok.mp h₃
    obtain ⟨hleaseExpires, rfl⟩ := query_eq_ok.mp hquery
    obtain ⟨text, store₅, hquery, h₅⟩ := bind_apply_eq_ok.mp h₄
    obtain ⟨-, rfl⟩ := query_eq_ok.mp hquery
    obtain ⟨_, store₆, hwrite, h₆⟩ := bind_apply_eq_ok.mp h₅
    cases hwrite
    cases h₆
    obtain ⟨rfl, -⟩ := plusSeconds_eq_ok hexpires
    obtain ⟨rfl, hrepresentable⟩ := plusSeconds_eq_ok hleaseExpires
    obtain ⟨hrow, hleasable⟩ := mem_next? hnext
    exact .inr ⟨row, stored, text, hrow, hleasable, hrepresentable, rfl, rfl⟩

/-- A result the reference store accepts. -/
theorem ingestResult_cases {store store' : Store} {agentId operationId : String}
    {fields : List (String × Json)} {now : DateTime} {new : Bool}
    (h : ingestResult R agentId operationId fields now store = .ok new store') :
    ∃ text state, checkResult R fields = .ok (text, state) ∧
      ((new = false ∧ store' = store) ∨ (new = true ∧ ∃ command, ∃ submitted : Store,
        Table.get? store.commands operationId = some command ∧
        submitted.commands = store.commands ∧
        store' = submitted.setCommand operationId (recordResult state (dbTime now)))) := by
  obtain ⟨⟨text, state⟩, store₁, hquery, h₁⟩ := bind_apply_eq_ok.mp h
  obtain ⟨hchecked, rfl⟩ := query_eq_ok.mp hquery
  obtain ⟨start, store₂, hget, h₂⟩ := bind_apply_eq_ok.mp h₁
  cases hget
  refine ⟨text, state, hchecked, ?_⟩
  cases hcommand : Table.get? store.commands operationId with
  | none =>
    rw [hcommand] at h₂
    cases h₂
  | some command =>
    rw [hcommand] at h₂
    dsimp only at h₂
    split at h₂
    · cases h₂
    · split at h₂
      · cases h₂
        exact .inl ⟨rfl, rfl⟩
      · split at h₂
        · cases h₂
        · split at h₂
          · cases h₂
          · cases h₂
            exact .inr ⟨rfl, command, { store with
              resultSubmissions := store.resultSubmissions ++ [{
                operationId, bodyHash := R.sha256 text, resultJson := text, resultState := state
                receivedAt := dbTime now }] }, rfl, rfl, rfl⟩

/-- A new command, or a repetition of a stored one. -/
theorem enqueue_cases {store store' : Store} {audience : String}
    {envelope : List (String × Json)} {now : DateTime} {u : Unit}
    (h : enqueueApprovedCommand R audience envelope now store = .ok u store') :
    store' = store ∨ ∃ row, row.status = .approved ∧
      (∀ c ∈ store.commands, c.operationId ≠ row.operationId) ∧
      store' = { store with commands := store.commands ++ [row] } := by
  obtain ⟨⟨agentId, operationId, idempotencyKey⟩, store₁, hquery, h₁⟩ := bind_apply_eq_ok.mp h
  obtain ⟨-, rfl⟩ := query_eq_ok.mp hquery
  obtain ⟨immutableJson, store₂, hquery, h₂⟩ := bind_apply_eq_ok.mp h₁
  obtain ⟨-, rfl⟩ := query_eq_ok.mp hquery
  obtain ⟨envelopeJson, store₃, hquery, h₃⟩ := bind_apply_eq_ok.mp h₂
  obtain ⟨-, rfl⟩ := query_eq_ok.mp hquery
  obtain ⟨start, store₄, hget, h₄⟩ := bind_apply_eq_ok.mp h₃
  cases hget
  split at h₄
  · cases hfind : store.commands.find? fun c =>
        c.operationId == operationId || c.idempotencyKey == idempotencyKey with
    | none =>
      rw [hfind] at h₄
      cases h₄
      refine .inr ⟨_, rfl, fun c hc heq => ?_, rfl⟩
      have hnot := List.find?_eq_none.mp hfind c hc
      rw [show c.operationId = operationId from heq] at hnot
      simp at hnot
    | some row =>
      rw [hfind] at h₄
      dsimp only at h₄
      split at h₄
      · cases h₄
        exact .inl rfl
      · cases h₄
  · cases h₄

/-! ### The slot over runs -/

/-- A column update of one command moves its slot only. -/
theorem storeSlot_setCommand {store : Store} {name : String} {f : Command → Command}
    (hkeep : ∀ row, (f row).operationId = row.operationId) {row : Command}
    (hrow : Table.get? store.commands name = some row) :
    storeSlot operationId (store.setCommand name f) =
      if operationId = name then commandSlot (f row) else storeSlot operationId store := by
  split
  · rename_i hsame
    subst hsame
    refine storeSlot_of_row ?_
    show Table.get? (Table.setValue operationId f store.commands) operationId = _
    rw [Table.get?_setValue_self hkeep, hrow, Option.map_some]
  · rename_i hne
    show ((Table.get? (Table.setValue name f store.commands) operationId).map commandSlot).getD _ = _
    rw [Table.get?_setValue_of_ne hkeep _ hne]
    rfl

/-- A write that keeps the ids keeps the key. -/
theorem keyed_setCommand {store : Store} {name : String} {f : Command → Command}
    (hkeep : ∀ row, (f row).operationId = row.operationId) (hkeyed : KeyedStore store) :
    KeyedStore (store.setCommand name f) :=
  (Table.unique_update hkeep).mpr hkeyed

/-- A command that can be leased is available. -/
theorem available_of_leasable' {row : Command} {current : String}
    (h : ControllerStore.leasable current row = true) : (commandSlot row).Available current := by
  simp only [ControllerStore.leasable, Bool.or_eq_true, Bool.and_eq_true, beq_iff_eq] at h
  unfold commandSlot
  rcases h with happroved | ⟨hleased, hexpired⟩
  · rw [happroved]
    trivial
  · rw [hleased]
    cases hexpiry : row.leaseExpiresAt with
    | none =>
      rw [hexpiry] at hexpired
      cases hexpired
    | some expiry =>
      rw [hexpiry] at hexpired
      show expiry ≤ current
      simpa using hexpired

/-- The calendar has every instant before one of its own. -/
theorem representable_of_le {a b : DateTime} (h : a ≤ b) (hb : b.representable = true) :
    a.representable = true := by
  simp only [DateTime.representable, decide_eq_true_eq] at hb ⊢
  exact lt_of_le_of_lt h hb

/-- A poll of the reference store leases the slot of the operation it delivers. -/
theorem leaseCommand_move {store store' : Store} (hkeyed : KeyedStore store) {agentId : String}
    {now : DateTime} {result : Option (String × List (String × Json))}
    (h : ControllerStore.leaseCommand R lifetime clockSkew agentId now store = .ok result store') :
    KeyedStore store' ∧
    ((∃ env, result = some (operationId, env) ∧
      ((now.addSeconds lifetime).addSeconds clockSkew).representable = true ∧
      Json.get env "issued_at" = .str (timestamp now) ∧
      Json.get env "expires_at" = .str (timestamp (now.addSeconds lifetime)) ∧
      Lease.Move (storeSlot operationId store)
        (.lease (dbTime now) (dbTime ((now.addSeconds lifetime).addSeconds clockSkew)))
        (storeSlot operationId store')) ∨
    ((∀ env, result ≠ some (operationId, env)) ∧
      storeSlot operationId store' = storeSlot operationId store)) := by
  rcases leaseCommand_cases h with ⟨rfl, rfl⟩ |
    ⟨row, stored, text, hrow, hleasable, hrepresentable, rfl, rfl⟩
  · exact ⟨hkeyed, .inr ⟨fun _ => by simp, rfl⟩⟩
  · have hget : Table.get? store.commands row.operationId = some row :=
      Table.get?_of_mem hkeyed hrow
    have hslot : storeSlot operationId (store.setCommand row.operationId (ControllerStore.lease
        (dbTime ((now.addSeconds lifetime).addSeconds clockSkew)) text (dbTime now))) = _ :=
      storeSlot_setCommand (f := ControllerStore.lease _ text _) (fun _ => rfl) hget
    refine ⟨keyed_setCommand (fun _ => rfl) hkeyed, ?_⟩
    rw [hslot]
    by_cases hsame : operationId = row.operationId
    · rw [if_pos hsame]
      refine .inl ⟨_, by rw [hsame], hrepresentable, ?_, Json.get_set_self _ _ _, ?_⟩
      · rw [Json.get_set_of_ne _ _ (by decide), Json.get_set_self]
      · rw [hsame, storeSlot_of_row hget]
        have hle := le_addSeconds_addSeconds now lifetime clockSkew
        refine .lease (available_of_leasable' hleasable) ?_
        exact (DateTime.rfc3339_le_iff (representable_of_le hle hrepresentable) hrepresentable).mpr hle
    · rw [if_neg hsame]
      refine .inr ⟨fun env heq => hsame ?_, rfl⟩
      simpa using (congrArg (Option.map Prod.fst) heq).symm

/-- A result closes the slot of its operation, whatever it reports. -/
theorem ingestResult_move {store store' : Store} (hkeyed : KeyedStore store)
    {agentId name : String} {fields : List (String × Json)} {now : DateTime} {new : Bool}
    (h : ingestResult R agentId name fields now store = .ok new store') :
    KeyedStore store' ∧ (∀ operationId, storeSlot operationId store' = storeSlot operationId store ∨
      storeSlot operationId store' = .closed) ∧
      (new = true → storeSlot name store' = .closed) := by
  obtain ⟨text, state, -, ⟨rfl, rfl⟩ | ⟨rfl, command, submitted, hcommand, hsubmitted, rfl⟩⟩ :=
    ingestResult_cases h
  · exact ⟨hkeyed, fun _ => .inl rfl, fun h => by cases h⟩
  · have hclosed : commandSlot (recordResult state (dbTime now) command) = .closed := by
      cases hterminal : state.terminal <;> simp [commandSlot, recordResult, hterminal]
    have hsame : ∀ operationId, storeSlot operationId submitted = storeSlot operationId store :=
      fun operationId => by rw [storeSlot, storeSlot, hsubmitted]
    have hslot : ∀ operationId, storeSlot operationId (submitted.setCommand name
        (recordResult state (dbTime now))) =
        if operationId = name then .closed else storeSlot operationId store := fun operationId => by
      rw [← hsubmitted] at hcommand
      rw [storeSlot_setCommand (f := recordResult state (dbTime now)) (fun _ => rfl) hcommand,
        hclosed, hsame]
    refine ⟨keyed_setCommand (fun _ => rfl) (by rwa [KeyedStore, hsubmitted]),
      fun operationId => ?_, fun _ => ?_⟩
    · rw [hslot]
      split
      · exact .inr rfl
      · exact .inl rfl
    · rw [hslot, if_pos rfl]

/-- A new command is one move of its slot. -/
theorem enqueue_move {store store' : Store} (hkeyed : KeyedStore store) {audience : String}
    {envelope : List (String × Json)} {now : DateTime} {u : Unit}
    (h : enqueueApprovedCommand R audience envelope now store = .ok u store') :
    KeyedStore store' ∧ storeSlot operationId store' = storeSlot operationId store := by
  rcases enqueue_cases h with rfl | ⟨row, happroved, hfresh, rfl⟩
  · exact ⟨hkeyed, rfl⟩
  · refine ⟨?_, ?_⟩
    · show Table.Unique (store.commands ++ [row])
      rw [Table.Unique, List.map_append, List.nodup_append]
      refine ⟨hkeyed, List.nodup_singleton _, fun name hname name' hname' heq => ?_⟩
      obtain ⟨c, hc, rfl⟩ := List.mem_map.mp hname
      rw [List.map_singleton, List.mem_singleton] at hname'
      exact hfresh c hc (heq.trans hname')
    · have hget : Table.get? (store.commands ++ [row]) operationId =
          (Table.get? store.commands operationId).or (Table.get? [row] operationId) :=
        List.find?_append
      show ((Table.get? (store.commands ++ [row]) operationId).map commandSlot).getD _ = _
      rw [hget, storeSlot]
      cases Table.get? store.commands operationId with
      | some c => rfl
      | none =>
        rw [Option.none_or]
        cases hnew : Table.get? [row] operationId with
        | none => rfl
        | some c =>
          have hc := Table.get?_mem hnew
          rw [List.mem_singleton] at hc
          rw [hc]
          show commandSlot row = _
          rw [commandSlot, happroved]
          rfl

variable (R lifetime clockSkew)

/-- Every call of the reference store is one move of the slot. -/
theorem reference_step (operationId : String) (store : Store) (call : Call) (store' : Store) (hkeyed : KeyedStore store)
    (h : CallStep R lifetime clockSkew store call store') :
    KeyedStore store' ∧
      ∃ e, Lease.Move (storeSlot operationId store) e (storeSlot operationId store') := by
  have hstay : ∀ {store'}, store' = store → KeyedStore store' ∧
      ∃ e, Lease.Move (storeSlot operationId store) e (storeSlot operationId store') := by
    rintro _ rfl
    exact ⟨hkeyed, Lease.move_of_eq rfl⟩
  cases call with
  | enqueue audience envelope now =>
    cases hcall : enqueueApprovedCommand R audience envelope now store with
    | ok u after =>
      have hafter := h.trans (Transaction.committed_of_ok hcall)
      subst hafter
      obtain ⟨hkeyed', hslot⟩ := enqueue_move hkeyed hcall
      exact ⟨hkeyed', Lease.move_of_eq hslot⟩
    | error e after => exact hstay (h.trans (Transaction.committed_of_error hcall))
  | lease agentId now =>
    cases hcall : ControllerStore.leaseCommand R lifetime clockSkew agentId now store with
    | ok result after =>
      have hafter := h.trans (Transaction.committed_of_ok hcall)
      subst hafter
      obtain ⟨hkeyed', ⟨_, -, -, -, -, hmove⟩ | ⟨-, hslot⟩⟩ := leaseCommand_move hkeyed hcall
      · exact ⟨hkeyed', _, hmove⟩
      · exact ⟨hkeyed', Lease.move_of_eq hslot⟩
    | error e after => exact hstay (h.trans (Transaction.committed_of_error hcall))
  | ingest agentId name fields now =>
    cases hcall : ingestResult R agentId name fields now store with
    | ok new after =>
      have hafter := h.trans (Transaction.committed_of_ok hcall)
      subst hafter
      obtain ⟨hkeyed', hslots, -⟩ := ingestResult_move hkeyed hcall
      rcases hslots operationId with hsame | hclosed
      · exact ⟨hkeyed', Lease.move_of_eq hsame⟩
      · rw [hclosed]
        exact ⟨hkeyed', .close, .close _⟩
    | error e after => exact hstay (h.trans (Transaction.committed_of_error hcall))

/-- The slot follows the reference store. -/
theorem reference_tracks (operationId : String) : Tracks clockSkew KeyedStore (CallStep R lifetime clockSkew)
    (LeaseDelivers R lifetime clockSkew operationId) (IngestRecords R operationId)
    (storeSlot operationId) (fun value => value.representable = true) dbTime where
  ordered := fun ha hb h => (DateTime.rfc3339_le_iff ha hb).mp h
  keeps := fun store call store' hkeyed h =>
    (reference_step R lifetime clockSkew "" store call store' hkeyed h).1
  moves := fun store call store' hkeyed h =>
    (reference_step R lifetime clockSkew operationId store call store' hkeyed h).2
  delivery := fun {now env store store'} hkeyed h => by
    obtain ⟨agentId, hlease⟩ := h
    obtain ⟨hkeyed', ⟨env', heq, hrepresentable, hissued, hexpires, hmove⟩ | ⟨hnot, -⟩⟩ :=
      leaseCommand_move hkeyed hlease
    · cases heq
      have hle := le_addSeconds_addSeconds now lifetime clockSkew
      exact ⟨hkeyed', representable_of_le hle hrepresentable, now.addSeconds lifetime,
        hrepresentable, hissued, hexpires, hmove⟩
    · exact absurd rfl (hnot env)
  record := fun {store store'} hkeyed h => by
    obtain ⟨agentId, fields, now, text, state, hingest, -, -⟩ := h
    have hmoved := ingestResult_move hkeyed hingest
    rw [hmoved.2.2 rfl]
    exact ⟨hmoved.1, .close _⟩

end Reference

/-- In both stores an operation is delivered again only after its last delivery has expired for
every clock, and never after a running or terminal result of it was recorded. -/
theorem leases_exclusive (R : Runtime) (lifetime clockSkew : ℕ) (operationId : String) :
    Exclusive clockSkew Stored (CommandStep R lifetime clockSkew)
        (Delivers R lifetime clockSkew operationId) (Records operationId) ∧
      Exclusive clockSkew KeyedStore (CallStep R lifetime clockSkew)
        (LeaseDelivers R lifetime clockSkew operationId) (IngestRecords R operationId) :=
  ⟨(frappe_tracks R lifetime clockSkew operationId).exclusive,
    (reference_tracks R lifetime clockSkew operationId).exclusive⟩

/-! ### Three polls -/

namespace Sample

open Lifecycle
open CommandSnapshot.Sample (runtime poll reported leased delivery later)

/-- A poll while the lease lasts, and one after it. -/
def polled : Database := Transaction.committed (poll 100) leased

@[inherit_doc polled]
def leasedAgain : Database := Transaction.committed (poll 400) polled

/-- The sample version satisfies the schema. -/
theorem stored_reported : Stored [reported] := by
  have hrows : Table.Unique reported.operations ∧
      (reported.operations.map (·.operationId)).Nodup ∧
      ∀ op ∈ reported.operations, orNone op.bulkTarget = none := by
    decide +kernel
  obtain ⟨hnames, hids, hsingle⟩ := hrows
  refine ⟨reported, [], rfl, hnames, hids, fun op hop _ _ bulkTarget hbulk _ => ?_⟩
  rw [hsingle op hop] at hbulk
  cases hbulk

/-- The first poll delivers the sample operation, the second finds it leased, the third delivers it
again. -/
theorem delivered : delivery (poll 100) leased = none ∧
    ((delivery (poll 2) reported).bind fun env => (Json.get env "operation_id").str?) =
      some Dispatcher.Sample.operationId ∧
    ((delivery (poll 400) polled).bind fun env => (Json.get env "operation_id").str?) =
      some Dispatcher.Sample.operationId := by
  decide +kernel

/-- A poll of the sample that answers with the operation delivers it. -/
theorem delivers {seconds : ℕ} {db : Database} (older : List Database)
    (h : ((delivery (poll seconds) db).bind fun env => (Json.get env "operation_id").str?) =
      some Dispatcher.Sample.operationId) :
    ∃ env, delivery (poll seconds) db = some env ∧
      Delivers runtime 300 5 Dispatcher.Sample.operationId (later seconds) env (db :: older)
        (Transaction.committed (poll seconds) db :: db :: older) := by
  obtain ⟨env, henv, hid⟩ := Option.bind_eq_some_iff.mp h
  refine ⟨env, henv, db, older, _, "agent-1", none, fun _ => true, [], rfl, rfl, ?_, ?_⟩
  · show poll seconds db = _
    cases hpoll : poll seconds db with
    | error e db' =>
      rw [delivery, Transaction.outcome, hpoll] at henv
      cases henv
    | ok result db' =>
      rw [delivery, Transaction.outcome, hpoll] at henv
      rw [Transaction.committed_of_ok hpoll, show result = some env from henv]
  · cases hvalue : Json.get env "operation_id" with
    | str s =>
      rw [hvalue] at hid
      exact congrArg Json.str (Option.some.inj hid)
    | _ =>
      rw [hvalue] at hid
      cases hid

end Sample

/-- An operation is delivered twice, and not by the poll in between; the second delivery is issued
after the first has expired. -/
theorem leases_exclusive_sample :
    CommandSnapshot.Sample.delivery (CommandSnapshot.Sample.poll 100)
        CommandSnapshot.Sample.leased = none ∧
      ∃ env env' expires,
        CommandSnapshot.Sample.delivery (CommandSnapshot.Sample.poll 2)
          CommandSnapshot.Sample.reported = some env ∧
        CommandSnapshot.Sample.delivery (CommandSnapshot.Sample.poll 400) Sample.polled =
          some env' ∧
        Json.get env "expires_at" = .str (timestamp expires) ∧
        Json.get env' "issued_at" = .str (timestamp (CommandSnapshot.Sample.later 400)) ∧
        expires.addSeconds 5 ≤ CommandSnapshot.Sample.later 400 := by
  obtain ⟨hnone, hfirst, hsecond⟩ := Sample.delivered
  obtain ⟨env, henv, hdelivers⟩ := Sample.delivers [] hfirst
  have hpoll : CommandStep CommandSnapshot.Sample.runtime 300 5
      [CommandSnapshot.Sample.leased, CommandSnapshot.Sample.reported]
      (.lease "agent-1" (CommandSnapshot.Sample.later 100) none (fun _ => true) [])
      [Sample.polled, CommandSnapshot.Sample.leased, CommandSnapshot.Sample.reported] :=
    ⟨.lease, fun h => by cases h⟩
  obtain ⟨env', henv', hdelivers'⟩ := Sample.delivers
    [CommandSnapshot.Sample.leased, CommandSnapshot.Sample.reported] hsecond
  obtain ⟨expires, hexpires, hissued, hle⟩ :=
    (leases_exclusive CommandSnapshot.Sample.runtime 300 5 Dispatcher.Sample.operationId).1.disjoint
      Sample.stored_reported hdelivers (Run.single hpoll) hdelivers'
  exact ⟨hnone, env, env', expires, henv, henv', hexpires, hissued, hle⟩

end LeaseExclusivity

end FrappeController
