import FrappeController.EventLogTheorems
import FrappeController.FrappeStoreTheorems

/-!
# The life of operations under interleaved requests

The transactions that move operations on are dispatch, leasing (with its quarantines), event
batches and results; every other transaction authors new operations or changes columns none
of these write (`OtherStep`). The state is the history of committed versions, newest first,
so that the reads of a request may see any of them.

`step_cases` says once what a step does: a sequence of `Write`s on the newest version, or an
`OtherStep`.
-/

namespace FrappeController
namespace Lifecycle

open Dispatcher FrappeStore FrappeRepository
open Transaction (bind_apply_eq_ok query_eq_ok)

/-! ## The system -/

/-- The unique columns of operations. -/
structure Schema (db : Database) : Prop where
  names : Table.Unique db.operations
  ids : (db.operations.map (·.operationId)).Nodup
  bulk : ∀ op ∈ db.operations, ∀ op' ∈ db.operations, ∀ bulkTarget,
    orNone op.bulkTarget = some bulkTarget → orNone op'.bulkTarget = some bulkTarget →
      op.name = op'.name

/-- Two rows agree in the columns this module is about. -/
structure SameRow (op op' : ControllerOperation) : Prop where
  name : op'.name = op.name
  operationId : op'.operationId = op.operationId
  bulkTarget : op'.bulkTarget = op.bulkTarget
  state : op'.state = op.state
  commandHash : op'.commandHash = op.commandHash
  resultHash : op'.resultHash = op.resultHash
  resultJson : op'.resultJson = op.resultJson

/-- A newly authored operation, which waits for approval with its targets. -/
structure Fresh (db : Database) (op : ControllerOperation) : Prop where
  state : op.state = .awaitingApproval
  commandHash : op.commandHash = none
  resultHash : op.resultHash = none
  targets : ∀ t ∈ db.operationTargets, t.operation = op.name → t.state = .awaitingApproval
  bulkTargets : ∀ b ∈ db.bulkTargets, orNone op.bulkTarget = some b.name →
    b.state = .planned ∨ b.state = .child .queued

/-- What other transactions may do to a bulk target: start or cancel a planned one. -/
def BulkMove (before after : BulkTargetState) : Prop :=
  after = before ∨ (before = .planned ∧ (after = .child .queued ∨ after = .child .cancelled))

/-- Any other transaction: authoring, approval decisions, inventory, the bulk scheduler. -/
structure OtherStep (db db' : Database) : Prop where
  schema : Schema db'
  kept : ∀ op ∈ db.operations, ∃ op' ∈ db'.operations, SameRow op op'
  old : ∀ op' ∈ db'.operations, (∃ op ∈ db.operations, SameRow op op') ∨ Fresh db' op'
  keptTarget : ∀ t ∈ db.operationTargets, ∃ t' ∈ db'.operationTargets,
    t'.name = t.name ∧ t'.operation = t.operation ∧ t'.state = t.state
  oldTarget : ∀ t' ∈ db'.operationTargets, (∃ t ∈ db.operationTargets,
    t'.name = t.name ∧ t'.operation = t.operation ∧ t'.state = t.state) ∨
      t'.state = .awaitingApproval
  keptBulkTarget : ∀ b ∈ db.bulkTargets, ∃ b' ∈ db'.bulkTargets,
    b'.name = b.name ∧ BulkMove b.state b'.state
  oldBulkTarget : ∀ b' ∈ db'.bulkTargets, (∃ b ∈ db.bulkTargets,
    b'.name = b.name ∧ BulkMove b.state b'.state) ∨ b'.state = .planned

inductive Label where
  | dispatch (name : String) (now : DateTime)
  | lease (agentId : String) (now : DateTime) (allowedOperationTypes : Option (List String))
      (commandFilter : Candidate → Bool) (locked : List String)
  | events (body : Json) (receivedAt : DateTime) (views : List Database)
  | result (body : Json) (receivedAt : DateTime) (views : List Database)
  | other

variable (R : Runtime) (lifetime clockSkew : ℕ)

/-- The answer to a result whose reads see `views`, and the version it leaves behind. -/
def serveResult (body : Json) (receivedAt : DateTime) (views : List Database) (db : Database) :
    Except Exc IngestedResult × Database :=
  serve (Ingestion.ingestResult R (repository R) body receivedAt) views db

/-- One commit. -/
inductive Step : List Database → Label → List Database → Prop
  | dispatch {db : Database} {older : List Database} {name : String} {now : DateTime} :
      Step (db :: older) (.dispatch name now)
        (Transaction.committed (dispatch R lifetime name now) db :: db :: older)
  | lease {db : Database} {older : List Database} {agentId : String} {now : DateTime}
      {allowedOperationTypes : Option (List String)} {commandFilter : Candidate → Bool}
      {locked : List String} :
      Step (db :: older) (.lease agentId now allowedOperationTypes commandFilter locked)
        (Transaction.committed (leaseCommand R lifetime clockSkew agentId now
          allowedOperationTypes commandFilter locked) db :: db :: older)
  | events {db : Database} {older : List Database} {body : Json} {receivedAt : DateTime}
      {views : List Database} (hviews : ∀ view ∈ views, view ∈ db :: older) :
      Step (db :: older) (.events body receivedAt views)
        ((serveEvents R body receivedAt views db).2 :: db :: older)
  | result {db : Database} {older : List Database} {body : Json} {receivedAt : DateTime}
      {views : List Database} (hviews : ∀ view ∈ views, view ∈ db :: older) :
      Step (db :: older) (.result body receivedAt views)
        ((serveResult R body receivedAt views db).2 :: db :: older)
  | other {db db' : Database} {older : List Database} (h : OtherStep db db') :
      Step (db :: older) .other (db' :: db :: older)

/-! ## What a step does -/

/-- A request reports `status` for an operation of its agent. -/
structure Report (db : Database) (body : Json) (op : ControllerOperation)
    (status : OperationState) : Prop where
  addressed : ∃ (raw : List (String × Json)) (row : IngestionRow),
    Ingestion.common R body "result" = .ok (raw, row.agentId, op.operationId) ∧
      FrappeRepository.operationRow? db op.operationId = some row ∧ row.op = op
  header : ∃ fields errorCode,
    Ingestion.resultHeader (body.getField "result") = .ok (fields, status, errorCode)

/-- A result that passed the checks: some version shows a stored result it may follow, whose
hash is the one the operation still stores. -/
structure Submission (history : List Database) (db : Database) (body : Json)
    (op : ControllerOperation) (r : IngestedResult) (state : OperationState) : Prop where
  report : Report R db body op r.status
  text : r.resultJson = R.dumps (body.getField "result")
  hash : r.bodyHash = R.sha256 r.resultJson
  recorded : state = r.status ∨ (r.status = .succeeded ∧ state = .needsIntervention)
  follows : ∃ view ∈ history, ∃ existing, result R view op.operationId = .ok existing ∧
    Follows existing r ∧ orNone op.resultHash = existing.map (·.bodyHash)

/-- The results a label may record. -/
def records (history : List Database) (base : Database) : Label → ControllerOperation →
    IngestedResult → OperationState → Prop
  | .result body _ _ => Submission R history base body
  | _ => fun _ _ _ => False

/-- One write on a version `db`, decided on the version `base` the transaction began with. -/
inductive Write (history : List Database) (l : Label) (base : Database) :
    Database → Database → Prop
  | queue {db : Database} {op : ControllerOperation} {now : DateTime}
      {env : List (String × Json)} {digest : String} {text : Text}
      (hlabel : l = .dispatch op.name now) (hop : op ∈ base.operations)
      (hstate : op.state = .awaitingApproval)
      (henv : envelope R lifetime base op.name now = .ok env)
      (hdigest : immutableCommandHash R env = .ok digest) :
      Write history l base db (db.advance op.name none (queue text digest)
        (fun t => { t with state := .queued }) id)
  | fail {db : Database} {op : ControllerOperation} {now : DateTime} (hop : op ∈ base.operations)
      (hleasable : leasableState op now = true) :
      Write history l base db (db.advance op.name (orNone op.bulkTarget) (failOperation now)
        failTarget (failBulkTarget now))
  | lease {db : Database} {op : ControllerOperation} {now : DateTime}
      (hop : op ∈ base.operations) (hleasable : leasableState op now = true) :
      Write history l base db (db.advance op.name none (lease lifetime clockSkew now)
        (fun t => { t with state := .leased }) id)
  | record {db : Database} {op : ControllerOperation} {r : IngestedResult}
      {state : OperationState} {errorCode : Option String} (hop : op ∈ base.operations)
      (hrecords : records R history base l op r state) :
      Write history l base db (record op r state errorCode db)

/-- The versions a transaction passes through. -/
inductive Writes (history : List Database) (l : Label) (base : Database) : Database → Prop
  | refl : Writes history l base base
  | step {db db' : Database} : Writes history l base db →
      Write R lifetime clockSkew history l base db db' → Writes history l base db'

section Specs

variable {R lifetime clockSkew}
variable {history : List Database} {l : Label}

/-- A dispatch that returns found its command queued already, or queued it. -/
theorem dispatch_eq_ok {db db' : Database} {name : String} {now : DateTime}
    {env : List (String × Json)} (h : dispatch R lifetime name now db = .ok env db') :
    envelope R lifetime db name now = .ok env ∧
      ((db' = db ∧ ∃ op, db.operation? name = some op ∧ op.state = .queued) ∨
      ∃ op digest text, db.operation? name = some op ∧ op.state = .awaitingApproval ∧
        orNone op.commandHash = none ∧ immutableCommandHash R env = .ok digest ∧
        canonicalJson R (.obj env) = .ok text ∧
        db' = db.advance name none (queue text digest) (fun t => { t with state := .queued }) id) := by
  obtain ⟨env', db₁, hquery, h₁⟩ := bind_apply_eq_ok.mp h
  obtain ⟨henv, rfl⟩ := query_eq_ok.mp hquery
  obtain ⟨digest, db₂, hquery₂, h₂⟩ := bind_apply_eq_ok.mp h₁
  obtain ⟨hdigest, rfl⟩ := query_eq_ok.mp hquery₂
  obtain ⟨text, db₃, hquery₃, h₃⟩ := bind_apply_eq_ok.mp h₂
  obtain ⟨htext, rfl⟩ := query_eq_ok.mp hquery₃
  obtain ⟨start, db₄, hget, h₄⟩ := bind_apply_eq_ok.mp h₃
  cases hget
  -- what follows the envelope depends on the row: none, queued already, or dispatchable
  cases hop : db.operation? name with
  | none =>
    rw [hop] at h₄
    cases h₄
  | some op =>
    rw [hop] at h₄
    dsimp only at h₄
    split at h₄
    · rename_i hqueued
      cases h₄
      exact ⟨henv, .inl ⟨rfl, op, rfl, hqueued.1⟩⟩
    · split at h₄
      · cases h₄
      · rename_i hdispatchable
        cases h₄
        simp only [not_or, not_not] at hdispatchable
        exact ⟨henv, .inr ⟨op, digest, text, rfl, hdispatchable.1, hdispatchable.2, hdigest, htext,
          rfl⟩⟩

theorem dispatch_writes {db db' : Database} {name : String} {now : DateTime}
    {env : List (String × Json)} (h : dispatch R lifetime name now db = .ok env db') :
    Writes R lifetime clockSkew history (.dispatch name now) db db' := by
  obtain ⟨henv, ⟨rfl, -⟩ | ⟨op, digest, text, hop, hstate, -, hdigest, -, rfl⟩⟩ := dispatch_eq_ok h
  · exact .refl
  · have hname : op.name = name := Table.get?_name hop
    subst hname
    exact .step .refl (.queue rfl (Table.get?_mem hop) hstate henv hdigest)

theorem mem_leasable {db : Database} {agentId : String}
    {allowedOperationTypes : Option (List String)} {locked : List String} {now : DateTime}
    {c : Candidate} (h : c ∈ leasable db agentId allowedOperationTypes locked now) :
    ∃ op ∈ db.operations, c.name = op.name ∧ c.bulkTarget = op.bulkTarget ∧
      leasableState op now = true := by
  obtain ⟨op, hop, hc⟩ := List.mem_filterMap.mp (List.mem_of_mem_take h)
  rw [List.mem_insertionSort] at hop
  simp only [candidate?, Option.bind_eq_bind, Option.bind_eq_some_iff] at hc
  obtain ⟨_, -, hc⟩ := hc
  split at hc
  · rename_i hcond
    cases hc
    simp only [Bool.and_eq_true] at hcond
    exact ⟨op, hop, rfl, rfl, hcond.1.1.2⟩
  · cases hc

theorem firstValid_writes {base db db' : Database} {commandFilter : Candidate → Bool}
    {now : DateTime} {queue : List Candidate} {found : Option (Candidate × List (String × Json))}
    (hqueue : ∀ c ∈ queue, ∃ op ∈ base.operations, c.name = op.name ∧
      c.bulkTarget = op.bulkTarget ∧ leasableState op now = true)
    (hdb : Writes R lifetime clockSkew history l base db)
    (h : firstValid R lifetime commandFilter now queue db = .ok found db') :
    Writes R lifetime clockSkew history l base db' ∧ ∀ c env, found = some (c, env) → c ∈ queue := by
  induction queue generalizing db with
  | nil =>
    cases h
    exact ⟨hdb, fun _ _ h => by cases h⟩
  | cons c rest ih =>
    rw [List.forall_mem_cons] at hqueue
    -- a candidate that is not taken leaves the rest of the queue to `ih`
    have hskip : ∀ {db}, Writes R lifetime clockSkew history l base db →
        firstValid R lifetime commandFilter now rest db = .ok found db' →
        Writes R lifetime clockSkew history l base db' ∧
          ∀ c' env, found = some (c', env) → c' ∈ c :: rest := fun hdb h =>
      (ih hqueue.2 hdb h).imp id fun hmem c' env hfound =>
        List.mem_cons_of_mem _ (hmem c' env hfound)
    cases hfilter : commandFilter c with
    | false =>
      rw [firstValid_cons_skip c rest hfilter] at h
      exact hskip hdb h
    | true =>
      rw [firstValid_cons rfl c rest hfilter] at h
      split at h
      · cases h
        exact ⟨hdb, fun _ _ h => by cases h; exact List.mem_cons_self⟩
      -- an invalid command is quarantined, which is a write of its own
      · obtain ⟨op, hop, hname, hbulk, hleasable⟩ := hqueue.1
        refine hskip (.step hdb ?_) h
        rw [quarantine, hname, hbulk]
        exact .fail hop hleasable
      · cases h

/-- A poll that returns scanned its queue and leased what the scan found. -/
theorem leaseCommand_eq_ok {db db' : Database} {agentId : String} {now : DateTime}
    {allowedOperationTypes : Option (List String)} {commandFilter : Candidate → Bool}
    {locked : List String} {result : Option (List (String × Json))}
    (h : leaseCommand R lifetime clockSkew agentId now allowedOperationTypes commandFilter locked
      db = .ok result db') :
    (result = none ∧ db' = db) ∨ ∃ found db₁,
      firstValid R lifetime commandFilter now
        (leasable db agentId allowedOperationTypes locked now) db = .ok found db₁ ∧
      ((found = none ∧ result = none ∧ db' = db₁) ∨ ∃ c env, found = some (c, env) ∧
        result = some (stamp lifetime now env) ∧ db' = db₁.advance c.name none
          (lease lifetime clockSkew now) (fun t => { t with state := .leased }) id) := by
  unfold leaseCommand at h
  split at h
  · cases h
    exact .inl ⟨rfl, rfl⟩
  · obtain ⟨start, db₁, hget, h₁⟩ := bind_apply_eq_ok.mp h
    cases hget
    obtain ⟨found, db₂, hscan, h₂⟩ := bind_apply_eq_ok.mp h₁
    refine .inr ⟨found, db₂, hscan, ?_⟩
    -- without a valid command only the quarantines are written
    cases found with
    | none =>
      cases h₂
      exact .inl ⟨rfl, rfl, rfl⟩
    | some found =>
      obtain ⟨c, env⟩ := found
      obtain ⟨_, db₃, hfirst, h₃⟩ := bind_apply_eq_ok.mp h₂
      obtain ⟨_, db₄, hsecond, h₄⟩ := bind_apply_eq_ok.mp h₃
      obtain ⟨_, db₅, hquery, h₅⟩ := bind_apply_eq_ok.mp h₄
      obtain ⟨-, rfl⟩ := query_eq_ok.mp hquery
      cases hfirst
      cases hsecond
      cases h₅
      exact .inr ⟨c, env, rfl, rfl, rfl⟩

theorem lease_writes {db db' : Database} {agentId : String} {now : DateTime}
    {allowedOperationTypes : Option (List String)} {commandFilter : Candidate → Bool}
    {locked : List String} {result : Option (List (String × Json))}
    (h : leaseCommand R lifetime clockSkew agentId now allowedOperationTypes commandFilter locked
      db = .ok result db') : Writes R lifetime clockSkew history l db db' := by
  rcases leaseCommand_eq_ok h with ⟨-, rfl⟩ | ⟨found, db₁, hscan, hlease⟩
  · exact .refl
  · have hscanned : Writes R lifetime clockSkew history l db db₁ ∧
        ∀ c env, found = some (c, env) →
          c ∈ leasable db agentId allowedOperationTypes locked now :=
      firstValid_writes (fun _ => mem_leasable) .refl hscan
    obtain ⟨hwrites, hfound⟩ := hscanned
    rcases hlease with ⟨-, -, hdb⟩ | ⟨c, env, hfoundSome, -, hdb⟩
    · rw [hdb]
      exact hwrites
    · obtain ⟨op, hop, hname, -, hleasable⟩ := mem_leasable (hfound c env hfoundSome)
      rw [hdb, hname]
      exact .step hwrites (.lease hop hleasable)

/-- A result that is accepted leaves everything as it is, or passed the checks and is recorded. -/
theorem ingestResult_record {db : Database} {older : List Database} {body : Json}
    {receivedAt : DateTime} {views : List Database} {request : Request} {r : IngestedResult}
    (hviews : ∀ view ∈ views, view ∈ db :: older)
    (h : Ingestion.ingestResult R (repository R) body receivedAt { views, current := db } =
      .ok r request) :
    request.current = db ∨ ∃ op ∈ db.operations, ∃ state errorCode,
      Submission R (db :: older) db body op r state ∧
        request.current = record op r state errorCode db := by
  obtain ⟨raw, agent, operationId, hcommon, htext, hhash, hheader, hcurrent⟩ :=
    ingestResult_eq_ok (P := (· ∈ db :: older)) ⟨List.mem_cons_self, hviews⟩ h
  rcases hcurrent with hsame | ⟨view, existing, hview, hexisting, hfollows, hcommit⟩
  · exact .inl hsame
  · obtain ⟨row, hrow, hagent, hwrite⟩ := commitResult_eq_ok hcommit
    rcases hwrite with hsame | ⟨hexpected, state, errorCode, hrecorded, hrecord⟩
    · exact .inl hsame
    · obtain ⟨hop, hid⟩ := operationRow?_eq_some hrow
      have hbody : Json.get raw "result" = body.getField "result" := by
        rw [common_eq_ok hcommon]
        rfl
      refine .inr ⟨row.op, hop, state, errorCode, ?_, hrecord⟩
      exact {
        report := {
          addressed := ⟨raw, row, by rw [hcommon, hagent, hid], hid ▸ hrow, rfl⟩
          header := hbody ▸ hheader }
        text := hbody ▸ htext, hash := hhash, recorded := recordedState_eq_ok hrecorded
        follows := ⟨view, hview, existing, hid ▸ hexisting, hfollows, hexpected⟩ }

theorem result_writes {db : Database} {older : List Database} {body : Json}
    {receivedAt : DateTime} {views : List Database} {request : Request} {r : IngestedResult}
    (hviews : ∀ view ∈ views, view ∈ db :: older)
    (h : Ingestion.ingestResult R (repository R) body receivedAt { views, current := db } =
      .ok r request) :
    Writes R lifetime clockSkew (db :: older) (.result body receivedAt views) db
      request.current := by
  rcases ingestResult_record hviews h with hsame | ⟨op, hop, state, errorCode, hrecords, hrecord⟩
  · rw [hsame]
    exact .refl
  · rw [hrecord]
    exact .step .refl (.record hop hrecords)

/-! ### Event batches -/

/-- The later version differs in events and cursors only. -/
structure EventsOnly (db db' : Database) : Prop where
  operations : db'.operations.map (moveCursor 0) = db.operations.map (moveCursor 0)
  operationTargets : db'.operationTargets = db.operationTargets
  bulkTargets : db'.bulkTargets = db.bulkTargets

theorem EventsOnly.refl (db : Database) : EventsOnly db db := ⟨rfl, rfl, rfl⟩

theorem EventsOnly.trans {db db' db'' : Database} (h : EventsOnly db db')
    (h' : EventsOnly db' db'') : EventsOnly db db'' :=
  ⟨h'.operations.trans h.operations, h'.operationTargets.trans h.operationTargets,
    h'.bulkTargets.trans h.bulkTargets⟩

theorem insertEvents_eventsOnly {db db' : Database} {operation operationId : String}
    {cursor last : ℕ} {events : List IngestedEvent}
    (h : insertEvents R operation operationId cursor events db = .ok last db') :
    EventsOnly db db' := by
  induction events generalizing db cursor with
  | nil =>
    cases h
    exact .refl _
  | cons e rest ih =>
    unfold insertEvents at h
    split at h
    · cases h
    · obtain ⟨_, db₁, hinsert, hrest⟩ := bind_apply_eq_ok.mp h
      obtain ⟨-, rfl⟩ := insertEvent_eq_ok hinsert
      have hcursor : ∀ q, moveCursor 0 (moveCursor e.sequence q) = moveCursor 0 q := fun _ => rfl
      have hfirst : EventsOnly db ({ db with operationEvents := db.operationEvents ++
          [eventDocument operation operationId e] }.setOperation operation
            (moveCursor e.sequence)) :=
        ⟨Table.map_update _ _ hcursor _, rfl, rfl⟩
      exact hfirst.trans (ih hrest)

theorem appendEvents_eventsOnly {db db' : Database} {agentId operationId : String}
    {expectedLastSequence cursor : ℕ} {events : List IngestedEvent}
    (h : appendEvents R agentId operationId expectedLastSequence events db = .ok cursor db') :
    EventsOnly db db' := by
  obtain ⟨start, db₁, hget, hbody⟩ := bind_apply_eq_ok.mp h
  cases hget
  cases hrow : FrappeRepository.operationRow? db operationId with
  | none =>
    rw [hrow] at hbody
    cases hbody
  | some row =>
    rw [hrow] at hbody
    dsimp only at hbody
    split at hbody
    · cases hbody
    · split at hbody
      · split at hbody <;> cases hbody
        exact .refl _
      · obtain ⟨last, db₂, hinsert, hcheck⟩ := bind_apply_eq_ok.mp hbody
        obtain ⟨final, db₃, hget, hreturn⟩ := bind_apply_eq_ok.mp hcheck
        cases hget
        split at hreturn <;> cases hreturn
        exact insertEvents_eventsOnly hinsert

theorem ingestEvents_eventsOnly {body : Json} {receivedAt : DateTime} {request request' : Request}
    {cursor : ℕ}
    (h : Ingestion.ingestEvents R (repository R) body receivedAt request = .ok cursor request') :
    EventsOnly request.current request'.current := by
  have hsees : ∀ request, Sees (fun _ => True) request := fun _ => ⟨trivial, fun _ _ => trivial⟩
  obtain ⟨⟨raw, agent, operationId⟩, request₁, hquery, h₁⟩ := bind_apply_eq_ok.mp h
  obtain ⟨-, rfl⟩ := query_eq_ok.mp hquery
  obtain ⟨identity, request₂, howner, h₂⟩ := bind_apply_eq_ok.mp h₁
  obtain ⟨-, -, -, hcurrent₂⟩ := owner_eq_ok (hsees request) howner
  obtain ⟨parsed, request₃, hquery', h₃⟩ := bind_apply_eq_ok.mp h₂
  obtain ⟨-, rfl⟩ := query_eq_ok.mp hquery'
  obtain ⟨⟨last, pending⟩, request₄, hpending, h₄⟩ := bind_apply_eq_ok.mp h₃
  obtain ⟨hcurrent₄, -, -⟩ := pendingEvents_eq_ok (hsees request₂) hpending
  rw [← hcurrent₂, ← hcurrent₄]
  dsimp only at h₄
  split at h₄
  · cases h₄
    exact .refl _
  · obtain ⟨committed, request₅, hlocked, h₅⟩ := bind_apply_eq_ok.mp h₄
    obtain ⟨after, hafter, rfl⟩ := locked_eq_ok.mp hlocked
    split at h₅ <;> cases h₅
    exact appendEvents_eventsOnly hafter

theorem sameRow_of_moveCursor {op op' : ControllerOperation}
    (h : moveCursor 0 op' = moveCursor 0 op) : SameRow op op' := by
  have hfield : ∀ {α : Type} (f : ControllerOperation → α),
      (∀ q, f (moveCursor 0 q) = f q) → f op' = f op := fun f hf => by
    rw [← hf op', h, hf]
  exact ⟨hfield (·.name) fun _ => rfl, hfield (·.operationId) fun _ => rfl,
    hfield (·.bulkTarget) fun _ => rfl, hfield (·.state) fun _ => rfl,
    hfield (·.commandHash) fun _ => rfl, hfield (·.resultHash) fun _ => rfl,
    hfield (·.resultJson) fun _ => rfl⟩

theorem EventsOnly.sameRow {db db' : Database} (h : EventsOnly db db') {op : ControllerOperation}
    (hop : op ∈ db.operations) : ∃ op' ∈ db'.operations, SameRow op op' := by
  have hmem : moveCursor 0 op ∈ db'.operations.map (moveCursor 0) :=
    h.operations ▸ List.mem_map_of_mem hop
  obtain ⟨op', hop', heq⟩ := List.mem_map.mp hmem
  exact ⟨op', hop', sameRow_of_moveCursor heq⟩

theorem EventsOnly.symm {db db' : Database} (h : EventsOnly db db') : EventsOnly db' db :=
  ⟨h.operations.symm, h.operationTargets.symm, h.bulkTargets.symm⟩

theorem SameRow.symm {op op' : ControllerOperation} (h : SameRow op op') : SameRow op' op :=
  ⟨h.name.symm, h.operationId.symm, h.bulkTarget.symm, h.state.symm, h.commandHash.symm,
    h.resultHash.symm, h.resultJson.symm⟩

/-- An event batch is one of the other transactions. -/
theorem EventsOnly.other {db db' : Database} (hschema : Schema db) (h : EventsOnly db db') :
    OtherStep db db' where
  schema := by
    have hmap : ∀ {α : Type} (f : ControllerOperation → α), (∀ q, f (moveCursor 0 q) = f q) →
        db'.operations.map f = db.operations.map f := fun f hf => by
      have heq := congrArg (List.map f) h.operations
      simpa only [List.map_map, Function.comp_def, hf] using heq
    have hnames : Table.Unique db'.operations := by
      rw [Table.Unique, hmap Named.name fun _ => rfl]
      exact hschema.names
    refine ⟨hnames, ?_, fun op hop q hq bulkTarget hbulk hbulk' => ?_⟩
    · rw [hmap (·.operationId) fun _ => rfl]
      exact hschema.ids
    · obtain ⟨op₀, hop₀, hsame⟩ := h.symm.sameRow hop
      obtain ⟨q₀, hq₀, hsame'⟩ := h.symm.sameRow hq
      rw [← hsame.name, ← hsame'.name]
      exact hschema.bulk op₀ hop₀ q₀ hq₀ bulkTarget (hsame.bulkTarget.symm ▸ hbulk)
        (hsame'.bulkTarget.symm ▸ hbulk')
  kept := fun op hop => h.sameRow hop
  old := fun op' hop' => by
    obtain ⟨op, hop, hsame⟩ := h.symm.sameRow hop'
    exact .inl ⟨op, hop, hsame.symm⟩
  keptTarget := fun t ht => ⟨t, h.operationTargets ▸ ht, rfl, rfl, rfl⟩
  oldTarget := fun t' ht' => .inl ⟨t', h.operationTargets ▸ ht', rfl, rfl, rfl⟩
  keptBulkTarget := fun b hb => ⟨b, h.bulkTargets ▸ hb, rfl, .inl rfl⟩
  oldBulkTarget := fun b' hb' => .inl ⟨b', h.bulkTargets ▸ hb', rfl, .inl rfl⟩

/-! ### The rows after a write -/

theorem mem_operations_advance {db : Database} {name : String} {bulkTarget : Option String}
    {f : ControllerOperation → ControllerOperation} {g : OperationTarget → OperationTarget}
    {h : BulkOperationTarget → BulkOperationTarget} {op' : ControllerOperation} :
    op' ∈ (db.advance name bulkTarget f g h).operations ↔
      ∃ op ∈ db.operations, (if op.name = name then f op else op) = op' := by
  cases bulkTarget <;> exact Table.mem_update _ _

theorem mem_operationTargets_advance {db : Database} {name : String} {bulkTarget : Option String}
    {f : ControllerOperation → ControllerOperation} {g : OperationTarget → OperationTarget}
    {h : BulkOperationTarget → BulkOperationTarget} {t' : OperationTarget} :
    t' ∈ (db.advance name bulkTarget f g h).operationTargets ↔
      ∃ t ∈ db.operationTargets, (if t.operation = name then g t else t) = t' := by
  cases bulkTarget <;> exact Table.mem_update _ _

theorem mem_bulkTargets_advance {db : Database} {name : String} {bulkTarget : Option String}
    {f : ControllerOperation → ControllerOperation} {g : OperationTarget → OperationTarget}
    {h : BulkOperationTarget → BulkOperationTarget} {b' : BulkOperationTarget} :
    b' ∈ (db.advance name bulkTarget f g h).bulkTargets ↔
      ∃ b ∈ db.bulkTargets, (if bulkTarget = some b.name then h b else b) = b' := by
  cases bulkTarget with
  | none => simp [Database.advance, Database.setOperation, Database.setOperationTarget]
  | some name' =>
    have hname : ∀ b : BulkOperationTarget, (Named.name b = name') = (some name' = some b.name) :=
      fun b => propext ⟨fun h => congrArg some h.symm, fun h => (Option.some.inj h).symm⟩
    simp only [Database.advance, Database.setBulkTarget, Table.setValue, Table.mem_update, hname]
    rfl

/-- The functions of a write keep the keys of the rows they write. -/
structure KeepsKeys (f : ControllerOperation → ControllerOperation)
    (g : OperationTarget → OperationTarget) (h : BulkOperationTarget → BulkOperationTarget) :
    Prop where
  operation : ∀ op, (f op).name = op.name ∧ (f op).operationId = op.operationId ∧
    (f op).bulkTarget = op.bulkTarget
  target : ∀ t, (g t).name = t.name ∧ (g t).operation = t.operation
  bulkTarget : ∀ b, (h b).name = b.name

/-- Writes keep what identifies an operation. -/
theorem schema_advance {db : Database} (hschema : Schema db) {name : String}
    {bulkTarget : Option String} {f : ControllerOperation → ControllerOperation}
    {g : OperationTarget → OperationTarget} {h : BulkOperationTarget → BulkOperationTarget}
    (hkeys : KeepsKeys f g h) :
    Schema (db.advance name bulkTarget f g h) := by
  have hoperations : (db.advance name bulkTarget f g h).operations =
      Table.setValue name f db.operations := by
    cases bulkTarget <;> rfl
  refine ⟨?_, ?_, fun op hop q hq b hb hb' => ?_⟩
  · rw [hoperations]
    exact (Table.unique_update fun op => (hkeys.operation op).1).mpr hschema.names
  · rw [hoperations, Table.setValue, Table.map_update _ _ fun op => (hkeys.operation op).2.1]
    exact hschema.ids
  · obtain ⟨op₀, hop₀, rfl⟩ := mem_operations_advance.mp hop
    obtain ⟨q₀, hq₀, rfl⟩ := mem_operations_advance.mp hq
    have hkeep : ∀ o : ControllerOperation, (if o.name = name then f o else o).name = o.name ∧
        (if o.name = name then f o else o).bulkTarget = o.bulkTarget := fun o => by
      split <;> simp [hkeys.operation]
    rw [(hkeep op₀).1, (hkeep q₀).1]
    rw [(hkeep op₀).2] at hb
    rw [(hkeep q₀).2] at hb'
    exact hschema.bulk op₀ hop₀ q₀ hq₀ b hb hb'

theorem schema_writes {base db : Database} (hschema : Schema base)
    (h : Writes R lifetime clockSkew history l base db) : Schema db := by
  induction h with
  | refl => exact hschema
  | step _ hwrite ih =>
    cases hwrite <;>
      exact schema_advance ih ⟨fun _ => ⟨rfl, rfl, rfl⟩, fun _ => ⟨rfl, rfl⟩, fun _ => rfl⟩

/-- What one step does to the newest version. -/
theorem step_cases {db : Database} {older history' : List Database} {l : Label}
    (hschema : Schema db) (h : Step R lifetime clockSkew (db :: older) l history') :
    ∃ db', history' = db' :: db :: older ∧
      (Writes R lifetime clockSkew (db :: older) l db db' ∨ OtherStep db db') := by
  cases h with
  | @dispatch db older name now =>
    refine ⟨_, rfl, .inl ?_⟩
    -- a request that raises leaves the database as it was
    unfold Transaction.committed
    split
    · rename_i hok
      exact dispatch_writes hok
    · exact .refl
  | @lease db older agentId now allowedOperationTypes commandFilter locked =>
    refine ⟨_, rfl, .inl ?_⟩
    unfold Transaction.committed
    split
    · rename_i hok
      exact lease_writes hok
    · exact .refl
  | @events db older body receivedAt views hviews =>
    refine ⟨_, rfl, .inr ?_⟩
    unfold serveEvents serve
    split
    · rename_i hok
      exact (ingestEvents_eventsOnly hok).other hschema
    · exact (EventsOnly.refl db).other hschema
  | @result db older body receivedAt views hviews =>
    refine ⟨_, rfl, .inl ?_⟩
    unfold serveResult serve
    split
    · rename_i hok
      exact result_writes hviews hok
    · exact .refl
  | other hother => exact ⟨_, rfl, .inr hother⟩

/-- Every version of a run satisfies the schema. -/
theorem schema_step {db : Database} {older history' : List Database} {l : Label}
    (hschema : Schema db) (h : Step R lifetime clockSkew (db :: older) l history') :
    ∃ db', history' = db' :: db :: older ∧ Schema db' := by
  obtain ⟨db', rfl, hwrites | hother⟩ := step_cases hschema h
  · exact ⟨db', rfl, schema_writes hschema hwrites⟩
  · exact ⟨db', rfl, hother.schema⟩

end Specs

end Lifecycle

end FrappeController
