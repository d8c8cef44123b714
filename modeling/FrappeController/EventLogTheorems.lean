import FrappeController.DispatcherTheorems
import FrappeController.FrappeRepositoryTheorems
import FrappeController.Library.Log
import FrappeController.Library.Run

/-!
# The event log under racing batches

Requests interleave as follows: the reads of a request see any versions committed since it
began, and its locked section works on the version current when it ends. The state is
therefore the history of committed versions, newest first. `LogOK` is the invariant of
every version, `Grows` relates each version to the later ones, and `ingestEvents_sound`
says what one accepted batch did whatever its reads saw.
-/

namespace FrappeController
namespace FrappeRepository

open Transaction (bind_apply_eq_ok query_eq_ok)

variable {R : Runtime}

/-! ## The invariant of a version -/

/-- Names and identifiers identify operations, every event belongs to one, and the events of
each are numbered up to its cursor. -/
structure LogOK (db : Database) : Prop where
  names : Table.Unique db.operations
  ids : (db.operations.map (·.operationId)).Nodup
  owned : ∀ e ∈ db.operationEvents, ∃ op ∈ db.operations,
    op.name = e.operation ∧ op.operationId = e.operationId
  numbered : ∀ op ∈ db.operations, Numbered (eventLog db op.name) op.lastEventSequence

/-- The later version keeps every event, in place. -/
def Grows (older newer : Database) : Prop := older.operationEvents <+: newer.operationEvents

/-- The bodies stored for a number of an operation. -/
def storedBodies (db : Database) (operationId : String) (sequence : ℕ) : List String :=
  (db.operationEvents.filter fun e =>
    e.operationId == operationId && e.sequence == sequence).map (·.bodyHash)

namespace LogOK

variable {db : Database} (hlog : LogOK db)
include hlog

theorem eq_of_id {op op' : ControllerOperation} (hop : op ∈ db.operations)
    (hop' : op' ∈ db.operations) (h : op.operationId = op'.operationId) : op = op' :=
  List.inj_on_of_nodup_map hlog.ids hop hop' h

/-- Events are found by the operation's name or by its identifier alike. -/
theorem operation_iff {op : ControllerOperation} (hop : op ∈ db.operations) {e : OperationEvent}
    (he : e ∈ db.operationEvents) : e.operation = op.name ↔ e.operationId = op.operationId := by
  obtain ⟨op', hop', hname, hid⟩ := hlog.owned e he
  constructor
  · intro h
    rw [← Table.eq_of_mem hlog.names hop' hop (hname.trans h), hid]
  · intro h
    rw [← hlog.eq_of_id hop' hop (hid.trans h), hname]

theorem mem_eventLog {op : ControllerOperation} (hop : op ∈ db.operations) {sequence : ℕ}
    {bodyHash : String} :
    (sequence, bodyHash) ∈ eventLog db op.name ↔ ∃ e ∈ db.operationEvents,
      e.operationId = op.operationId ∧ e.sequence = sequence ∧ e.bodyHash = bodyHash := by
  simp only [eventLog, List.mem_map, List.mem_filter, beq_iff_eq, FrappeRepository.numbered,
    Prod.mk.injEq]
  constructor
  · rintro ⟨e, ⟨he, hname⟩, hseq, hhash⟩
    exact ⟨e, he, (hlog.operation_iff hop he).mp hname, hseq, hhash⟩
  · rintro ⟨e, he, hid, hseq, hhash⟩
    exact ⟨e, ⟨he, (hlog.operation_iff hop he).mpr hid⟩, hseq, hhash⟩

/-- A logged body is the only one its number has. -/
theorem storedBodies_eq {op : ControllerOperation} (hop : op ∈ db.operations) {sequence : ℕ}
    {bodyHash : String} (hmem : (sequence, bodyHash) ∈ eventLog db op.name) :
    storedBodies db op.operationId sequence = [bodyHash] := by
  have hentry := (hlog.numbered op hop).filter_number hmem
  -- the events of the operation id are those of the row
  have hfilter : db.operationEvents.filter
        (fun e => e.operationId == op.operationId && e.sequence == sequence) =
      (db.operationEvents.filter fun e => e.operation == op.name).filter
        fun e => e.sequence == sequence := by
    rw [List.filter_filter]
    refine List.filter_congr fun e he => ?_
    rw [Bool.and_comm]
    congr 1
    exact Bool.eq_iff_iff.mpr (by simpa using (hlog.operation_iff hop he).symm)
  -- of a numbered log at most one event has the number
  have hmap : ∀ events : List OperationEvent,
      (events.filter fun e => e.sequence == sequence).map (·.bodyHash) =
        ((events.map FrappeRepository.numbered).filter fun e => e.1 = sequence).map Prod.snd := by
    intro events
    rw [List.filter_map, List.map_map]
    rfl
  rw [storedBodies, hfilter, hmap]
  simp only [eventLog] at hentry
  rw [hentry]
  rfl

end LogOK

/-! ## Appending events -/

/-- What an insertion does: the event is the next of its operation, and only its operation's
cursor and the event table change. -/
theorem insertEvent_eq_ok {db db' : Database} {e : OperationEvent}
    (h : insertEvent R e db = .ok () db') :
    (∃ op, db.operation? e.operation = some op ∧ op.operationId = e.operationId ∧
        e.sequence = op.lastEventSequence + 1) ∧
      db' = { db with operationEvents := db.operationEvents ++ [e] }.setOperation e.operation
        (moveCursor e.sequence) := by
  obtain ⟨_, db₁, hvalidate, h⟩ := bind_apply_eq_ok.mp h
  obtain ⟨hvalid, rfl⟩ := query_eq_ok.mp hvalidate
  refine ⟨?_, ?_⟩
  -- the sequence check of `validate`
  · simp only [validateEvent, Transaction.bind_eq_ok, ensure_eq_ok, exists_const] at hvalid
    obtain ⟨-, _, -, _, -, hvalid⟩ := hvalid
    split at hvalid
    · cases hvalid
    · rename_i op hop
      obtain ⟨_, hid, hvalid⟩ := Transaction.bind_eq_ok.mp hvalid
      split at hvalid
      · split at hvalid <;> cases hvalid
      · exact ⟨op, hop, by simpa using hid, by simpa using hvalid⟩
  · cases h
    rfl

/-- The next event of an operation, with its cursor: the invariant is kept. -/
theorem logOK_insert {db : Database} (hlog : LogOK db) {op : ControllerOperation}
    (hop : op ∈ db.operations) {e : OperationEvent} (hname : e.operation = op.name)
    (hid : e.operationId = op.operationId) (hnext : e.sequence = op.lastEventSequence + 1) :
    LogOK ({ db with operationEvents := db.operationEvents ++ [e] }.setOperation e.operation
      (moveCursor e.sequence)) := by
  have hkeep : ∀ r, Named.name (moveCursor e.sequence r) = Named.name r := fun _ => rfl
  refine ⟨(Table.unique_update hkeep).mpr hlog.names, ?_, ?_, ?_⟩
  · have : ∀ r, (moveCursor e.sequence r).operationId = r.operationId := fun _ => rfl
    simp only [Database.setOperation, Table.setValue, Table.map_update _ _ this]
    exact hlog.ids
  · -- every old owner is still there, with a possibly moved cursor
    have hstill : ∀ q ∈ db.operations, ∃ q' ∈ Table.setValue e.operation (moveCursor e.sequence)
        db.operations, q'.name = q.name ∧ q'.operationId = q.operationId := by
      intro q hq
      refine ⟨_, (Table.mem_update _ _).mpr ⟨q, hq, rfl⟩, ?_⟩
      split <;> exact ⟨rfl, rfl⟩
    intro d hd
    rcases List.mem_append.mp hd with hd | hd
    · obtain ⟨q, hq, hqname, hqid⟩ := hlog.owned d hd
      obtain ⟨q', hq', hname', hid'⟩ := hstill q hq
      exact ⟨q', hq', hname'.trans hqname, hid'.trans hqid⟩
    · obtain ⟨q', hq', hname', hid'⟩ := hstill op hop
      rw [List.mem_singleton.mp hd]
      exact ⟨q', hq', hname'.trans hname.symm, hid'.trans hid.symm⟩
  · intro q' hq'
    obtain ⟨q, hq, rfl⟩ := (Table.mem_update _ _).mp hq'
    have hnumbered := hlog.numbered q hq
    by_cases hmine : q.name = e.operation
    · -- the operation of the event: its log gains the event's number
      have hqop : q = op := Table.eq_of_mem hlog.names hq hop (hmine.trans hname)
      subst hqop
      have hmineR : Named.name q = e.operation := hmine
      simp only [hmineR, if_true, eventLog, Database.setOperation, List.filter_append,
        List.map_append, moveCursor]
      have hlast : ([e].filter fun d => d.operation == q.name).map numbered =
          [(q.lastEventSequence + 1, e.bodyHash)] := by
        simp [hname, numbered, hnext]
      rw [hlast, hnext]
      exact hnumbered.snoc e.bodyHash
    · have hmineR : ¬ Named.name q = e.operation := hmine
      simp only [hmineR, if_false, eventLog, Database.setOperation, List.filter_append,
        List.map_append]
      have hnone : [e].filter (fun d => d.operation == q.name) = [] := by
        simpa using fun h => hmine h.symm
      rw [hnone]
      simpa [eventLog] using hnumbered

theorem Grows.refl (db : Database) : Grows db db := List.prefix_refl _

theorem Grows.trans {db db' db'' : Database} (h : Grows db db') (h' : Grows db' db'') :
    Grows db db'' := List.IsPrefix.trans h h'

theorem Grows.eventLog {db db' : Database} (h : Grows db db') (operation : String) :
    eventLog db operation <+: eventLog db' operation :=
  List.IsPrefix.map _ (List.IsPrefix.filter _ h)

theorem grows_insert (db : Database) (e : OperationEvent) :
    Grows db ({ db with operationEvents := db.operationEvents ++ [e] }.setOperation e.operation
      (moveCursor e.sequence)) :=
  List.prefix_append _ _

/-- The insertion loop stores every event, moves the cursor to the last, and keeps the
invariant. -/
theorem insertEvents_eq_ok {db db' : Database} {op : ControllerOperation} {cursor last : ℕ}
    {events : List IngestedEvent} (hlog : LogOK db) (hop : op ∈ db.operations)
    (hcursor : op.lastEventSequence = cursor)
    (h : insertEvents R op.name op.operationId cursor events db = .ok last db') :
    LogOK db' ∧ Grows db db' ∧ ∃ op' ∈ db'.operations, op'.name = op.name ∧
      op'.operationId = op.operationId ∧ op'.lastEventSequence = last ∧
      ∀ e ∈ events, (e.sequence, e.bodyHash) ∈ eventLog db' op.name := by
  induction events generalizing db op cursor with
  | nil =>
    cases h
    exact ⟨hlog, Grows.refl _, op, hop, rfl, rfl, hcursor, by simp⟩
  | cons e rest ih =>
    unfold insertEvents at h
    split at h
    · cases h
    · rename_i hnext
      have hnext : e.sequence = cursor + 1 := not_not.mp hnext
      obtain ⟨_, db₁, hinsert, hrest⟩ := bind_apply_eq_ok.mp h
      obtain ⟨-, rfl⟩ := insertEvent_eq_ok hinsert
      have hlog₁ := logOK_insert hlog hop (e := eventDocument op.name op.operationId e) rfl rfl
        (hcursor ▸ hnext)
      have hop₁ : moveCursor e.sequence op ∈ Table.setValue op.name (moveCursor e.sequence)
          db.operations :=
        (Table.mem_update _ _).mpr ⟨op, hop, if_pos rfl⟩
      obtain ⟨hlog', hgrows, op', hop', hname, hid, hlast, hstored⟩ :=
        @ih _ (moveCursor e.sequence op) _ hlog₁ hop₁ rfl hrest
      refine ⟨hlog', Grows.trans (grows_insert db _) hgrows, op', hop', hname, hid, hlast,
        List.forall_mem_cons.mpr ⟨?_, hstored⟩⟩
      -- the head was stored by this turn, and nothing stored is lost later
      refine (hgrows.eventLog op.name).subset ?_
      simp [eventLog, Database.setOperation, eventDocument, numbered]

/-- The events of an exact replay are stored. -/
theorem replayed_mem {db : Database} {operation : String} {cursor : ℕ}
    {events : List IngestedEvent} (h : replayed db operation cursor events = true)
    {e : IngestedEvent} (he : e ∈ events) : (e.sequence, e.bodyHash) ∈ eventLog db operation := by
  unfold replayed at h
  split at h
  · simp only [Bool.and_eq_true, beq_iff_eq] at h
    have hmem : (e.sequence, e.bodyHash) ∈ events.map fun e => (e.sequence, e.bodyHash) :=
      List.mem_map_of_mem he
    rw [← h.2, List.mem_insertionSort] at hmem
    exact List.mem_of_mem_filter hmem
  · cases h

/-- What an accepted append did to the current version: it kept the invariant and every
event, stores every event it was given, and returns a cursor the operation has now. -/
theorem appendEvents_eq_ok {db db' : Database} {agentId operationId : String}
    {expectedLastSequence cursor : ℕ} {events : List IngestedEvent} (hlog : LogOK db)
    (h : appendEvents R agentId operationId expectedLastSequence events db = .ok cursor db') :
    LogOK db' ∧ Grows db db' ∧ ∃ op ∈ db'.operations, op.operationId = operationId ∧
      op.lastEventSequence = cursor ∧
      ∀ e ∈ events, (e.sequence, e.bodyHash) ∈ eventLog db' op.name := by
  obtain ⟨start, db₁, hget, h⟩ := bind_apply_eq_ok.mp h
  cases hget
  cases hrow : operationRow? db operationId with
  | none =>
    rw [hrow] at h
    cases h
  | some row =>
    rw [hrow] at h
    obtain ⟨hop, hid⟩ := operationRow?_eq_some hrow
    dsimp only at h
    split at h
    · cases h
    · split at h
      · split at h
        · -- the exact replay: the same events are stored already
          rename_i hreplayed
          cases h
          exact ⟨hlog, Grows.refl _, row.op, hop, hid, rfl, fun e he => replayed_mem hreplayed he⟩
        · cases h
      · rename_i hexpected
        subst hid
        obtain ⟨last, db₂, hinsert, hcheck⟩ := bind_apply_eq_ok.mp h
        obtain ⟨hlog', hgrows, op', hop', hname, hid', hlast, hstored⟩ :=
          insertEvents_eq_ok hlog hop rfl hinsert
        obtain ⟨final, db₃, hget, hreturn⟩ := bind_apply_eq_ok.mp hcheck
        cases hget
        split at hreturn
        · cases hreturn
          exact ⟨hlog', hgrows, op', hop', hid', hlast, hname.symm ▸ hstored⟩
        · cases hreturn

/-! ## One batch -/

/-- The operation's cursor in a version. -/
def HasCursor (db : Database) (operationId : String) (cursor : ℕ) : Prop :=
  ∃ op ∈ db.operations, op.operationId = operationId ∧ op.lastEventSequence = cursor

theorem LogOK.storedBodies_of_mem {db : Database} (hlog : LogOK db) {e : OperationEvent}
    (he : e ∈ db.operationEvents) : storedBodies db e.operationId e.sequence = [e.bodyHash] := by
  obtain ⟨op, hop, -, hid⟩ := hlog.owned e he
  rw [← hid]
  exact hlog.storedBodies_eq hop ((hlog.mem_eventLog hop).mpr ⟨e, he, hid.symm, rfl, rfl⟩)

theorem event_eq_some {db : Database} {operationId : String} {sequence : ℕ} {stored : StoredEvent}
    (h : event db operationId sequence = some stored) :
    ∃ e ∈ db.operationEvents, e.operationId = operationId ∧ e.sequence = sequence ∧
      e.bodyHash = stored.bodyHash := by
  obtain ⟨e, he, rfl⟩ := Option.map_eq_some_iff.mp h
  have hkey := List.find?_some he
  simp only [Bool.and_eq_true, beq_iff_eq] at hkey
  exact ⟨e, List.mem_of_find?_eq_some he, hkey.1, hkey.2, rfl⟩

/-- Every item of a batch is either pending or stored, with its body, in a visible version. -/
theorem pendingEvents_eq_ok {P : Database → Prop} {operationId : String} {cursor last : ℕ}
    {items pending : List IngestedEvent} {request request' : Request} (hsees : Sees P request)
    (h : Ingestion.pendingEvents (repository R) operationId cursor items request =
      .ok (last, pending) request') :
    request'.current = request.current ∧ (pending = [] → last = cursor) ∧
      ∀ item ∈ items, item ∈ pending ∨ ∃ view, P view ∧ ∃ e ∈ view.operationEvents,
        e.operationId = operationId ∧ e.sequence = item.sequence ∧ e.bodyHash = item.bodyHash := by
  induction items generalizing cursor pending request with
  | nil =>
    cases h
    exact ⟨rfl, fun _ => rfl, by simp⟩
  | cons item rest ih =>
    obtain ⟨existing, request₁, hread, hturn⟩ := bind_apply_eq_ok.mp h
    obtain ⟨⟨view, hP, hview⟩, hsees₁, hcurrent⟩ :=
      read_eq_ok (f := fun db => .ok (event db operationId item.sequence)) hsees hread
    cases hview
    cases hevent : event view operationId item.sequence with
    | some stored =>
      -- stored already: it must be the same event, and it is not pending
      rw [hevent] at hturn
      dsimp only at hturn
      split at hturn
      · cases hturn
      · rename_i hsame
        split at hturn
        · cases hturn
        · obtain ⟨hcurrent', hlast, hrest⟩ := ih hsees₁ hturn
          obtain ⟨e, he, hid, hseq, hhash⟩ := event_eq_some hevent
          refine ⟨hcurrent'.trans hcurrent, hlast, List.forall_mem_cons.mpr ⟨.inr ?_, hrest⟩⟩
          exact ⟨view, hP, e, he, hid, hseq, hhash.trans (not_not.mp hsame)⟩
    | none =>
      rw [hevent] at hturn
      dsimp only at hturn
      split at hturn
      · cases hturn
      · obtain ⟨⟨last', pending'⟩, request₂, hrec, hreturn⟩ := bind_apply_eq_ok.mp hturn
        cases hreturn
        obtain ⟨hcurrent', -, hrest⟩ := ih hsees₁ hrec
        refine ⟨hcurrent'.trans hcurrent, by simp, List.forall_mem_cons.mpr
          ⟨.inl List.mem_cons_self, fun d hd => ?_⟩⟩
        exact (hrest d hd).imp (List.mem_cons_of_mem _) id

/-- What an accepted batch did: it names an operation and parses to events that are all
stored, once, with the submitted bodies; and the returned cursor is one the operation had in
a visible version or has now. -/
structure Accepted (R : Runtime) (body : Json) (receivedAt : DateTime) (visible : List Database)
    (after : Database) (cursor : ℕ) : Prop where
  stored : ∃ raw agent operationId parsed,
    Ingestion.common R body "events" = .ok (raw, agent, operationId) ∧
    Ingestion.batch R operationId receivedAt (Json.get raw "events") = .ok parsed ∧
    (∀ item ∈ parsed, storedBodies after operationId item.sequence = [item.bodyHash]) ∧
    ∃ version ∈ after :: visible, HasCursor version operationId cursor

/-- Whatever committed versions its reads see, an accepted batch keeps the invariant and
every event, and did what it answers. -/
theorem ingestEvents_eq_ok {body : Json} {receivedAt : DateTime} {visible : List Database}
    {request request' : Request} {cursor : ℕ}
    (hsees : Sees (fun view => view ∈ visible ∧ LogOK view ∧ Grows view request.current) request)
    (h : Ingestion.ingestEvents R (repository R) body receivedAt request = .ok cursor request') :
    LogOK request'.current ∧ Grows request.current request'.current ∧
      Accepted R body receivedAt visible request'.current cursor := by
  obtain ⟨⟨raw, agent, operationId⟩, request₁, hquery, h₁⟩ := bind_apply_eq_ok.mp h
  obtain ⟨hcommon, rfl⟩ := query_eq_ok.mp hquery
  obtain ⟨identity, request₂, howner, h₂⟩ := bind_apply_eq_ok.mp h₁
  obtain ⟨⟨view, ⟨hvisible, -, -⟩, hview⟩, -, hsees₂, hcurrent₂⟩ := owner_eq_ok hsees howner
  obtain ⟨row, hrow, -, -, hcursor⟩ := operation_eq_some hview
  obtain ⟨hop, hid⟩ := operationRow?_eq_some hrow
  obtain ⟨parsed, request₃, hquery', h₃⟩ := bind_apply_eq_ok.mp h₂
  obtain ⟨hbatch, rfl⟩ := query_eq_ok.mp hquery'
  obtain ⟨⟨last, pending⟩, request₄, hpending, h₄⟩ := bind_apply_eq_ok.mp h₃
  obtain ⟨hcurrent₄, hlast, hitems⟩ := pendingEvents_eq_ok hsees₂ hpending
  have hcurrent : request₄.current = request.current := hcurrent₄.trans hcurrent₂
  have hlog : LogOK request.current := hsees.1.2.1
  -- an event of a visible version is stored in every version that has grown from this one
  have hkept : ∀ {after : Database}, LogOK after → Grows request.current after →
      ∀ item : IngestedEvent, (∃ view, (view ∈ visible ∧ LogOK view ∧ Grows view request.current) ∧
        ∃ e ∈ view.operationEvents, e.operationId = operationId ∧ e.sequence = item.sequence ∧
          e.bodyHash = item.bodyHash) →
      storedBodies after operationId item.sequence = [item.bodyHash] := by
    rintro after hafter hgrows item ⟨older, ⟨-, -, hold⟩, e, he, rfl, hseq, hhash⟩
    rw [← hseq, ← hhash]
    exact hafter.storedBodies_of_mem ((hold.trans hgrows).subset he)
  dsimp only at h₄
  split at h₄
  · -- nothing was pending: the answer is the cursor that was read
    rename_i hempty
    cases h₄
    have hnil : pending = [] := List.isEmpty_iff.mp hempty
    rw [hcurrent]
    refine ⟨hlog, Grows.refl _, raw, agent, operationId, parsed, hcommon, hbatch,
      fun item hitem => ?_, view, List.mem_cons_of_mem _ hvisible, row.op, hop, hid, ?_⟩
    · rcases hitems item hitem with hpend | hstored
      · simp [hnil] at hpend
      · exact hkept hlog (Grows.refl _) item hstored
    · rw [hlast hnil, hcursor]
  · obtain ⟨committed, request₅, hlocked, h₅⟩ := bind_apply_eq_ok.mp h₄
    obtain ⟨after, hafter, rfl⟩ := locked_eq_ok.mp hlocked
    rw [hcurrent] at hafter
    obtain ⟨hlog', hgrows, op, hop', hid', hcursor', hstored⟩ := appendEvents_eq_ok hlog hafter
    split at h₅
    · rename_i hcommitted
      cases h₅
      refine ⟨hlog', hgrows, raw, agent, operationId, parsed, hcommon, hbatch,
        fun item hitem => ?_, after, List.mem_cons_self, op, hop', hid',
        hcursor'.trans hcommitted⟩
      rcases hitems item hitem with hpend | hseen
      · rw [← hid']
        exact hlog'.storedBodies_eq hop' (hstored item hpend)
      · exact hkept hlog' hgrows item hseen
    · cases h₅

/-! ## Histories -/

/-- The answer to a batch whose reads see `views`, and the version it leaves behind. -/
def serveEvents (R : Runtime) (body : Json) (receivedAt : DateTime) (views : List Database)
    (db : Database) : Except Exc ℕ × Database :=
  serve (Ingestion.ingestEvents R (repository R) body receivedAt) views db

/-- The columns of an operation the event log depends on. -/
def logColumns (op : ControllerOperation) : String × String × ℕ :=
  (op.name, op.operationId, op.lastEventSequence)

/-- Any other transaction: it leaves the events and the cursors alone, and may author new
operations. -/
structure OtherStep (db db' : Database) : Prop where
  events : db'.operationEvents = db.operationEvents
  kept : ∃ fresh, db'.operations.map logColumns = db.operations.map logColumns ++ fresh ∧
    ∀ columns ∈ fresh, columns.2.2 = 0
  names : Table.Unique db'.operations
  ids : (db'.operations.map (·.operationId)).Nodup

inductive Label where
  /-- A batch whose reads saw `views`, among the last `since` committed versions. -/
  | batch (body : Json) (receivedAt : DateTime) (since : ℕ) (views : List Database)
  | other

/-- One commit, on a history whose newest version comes first. -/
inductive Step (R : Runtime) : List Database → Label → List Database → Prop
  | batch {db : Database} {older : List Database} {body : Json} {receivedAt : DateTime}
      {since : ℕ} {views : List Database} (hsince : 1 ≤ since)
      (hviews : ∀ view ∈ views, view ∈ (db :: older).take since) :
      Step R (db :: older) (.batch body receivedAt since views)
        ((serveEvents R body receivedAt views db).2 :: db :: older)
  | other {db db' : Database} {older : List Database} (h : OtherStep db db') :
      Step R (db :: older) .other (db' :: db :: older)

/-- Every version satisfies the invariant, and has grown from the older ones. -/
structure HistoryOK (history : List Database) : Prop where
  ok : ∀ db ∈ history, LogOK db
  grows : history.Pairwise fun newer older => Grows older newer

theorem HistoryOK.cons {db db' : Database} {older : List Database} (h : HistoryOK (db :: older))
    (hlog : LogOK db') (hgrows : Grows db db') : HistoryOK (db' :: db :: older) := by
  refine ⟨List.forall_mem_cons.mpr ⟨hlog, h.ok⟩, List.pairwise_cons.mpr ⟨fun v hv => ?_, h.grows⟩⟩
  rcases List.mem_cons.mp hv with rfl | hv
  · exact hgrows
  · exact ((List.pairwise_cons.mp h.grows).1 v hv).trans hgrows

theorem HistoryOK.sees {db : Database} {older views : List Database} {since : ℕ}
    (h : HistoryOK (db :: older)) (hsince : 1 ≤ since)
    (hviews : ∀ view ∈ views, view ∈ (db :: older).take since) :
    Sees (fun view => view ∈ (db :: older).take since ∧ LogOK view ∧ Grows view db)
      { views, current := db } := by
  have hnewest : ∀ v ∈ db :: older, Grows v db := by
    intro v hv
    rcases List.mem_cons.mp hv with rfl | hv
    · exact Grows.refl _
    · exact (List.pairwise_cons.mp h.grows).1 v hv
  have hversion : ∀ v ∈ (db :: older).take since,
      v ∈ (db :: older).take since ∧ LogOK v ∧ Grows v db := fun v hv =>
    ⟨hv, h.ok v (List.mem_of_mem_take hv), hnewest v (List.mem_of_mem_take hv)⟩
  refine ⟨hversion db ?_, fun v hv => hversion v (hviews v hv)⟩
  obtain ⟨n, rfl⟩ : ∃ n, since = n + 1 := ⟨since - 1, by omega⟩
  simp

theorem LogOK.other {db db' : Database} (hlog : LogOK db) (h : OtherStep db db') : LogOK db' := by
  obtain ⟨fresh, hcolumns, hfresh⟩ := h.kept
  have hnames : db'.operations.map (·.name) = (db.operations.map (·.name)) ++ fresh.map Prod.fst := by
    have := congrArg (List.map Prod.fst) hcolumns
    simpa [List.map_map, Function.comp_def, logColumns] using this
  refine ⟨h.names, h.ids, ?_, ?_⟩
  · intro e he
    rw [h.events] at he
    obtain ⟨op, hop, hname, hid⟩ := hlog.owned e he
    have hmem : logColumns op ∈ db'.operations.map logColumns := by
      rw [hcolumns]
      exact List.mem_append_left _ (List.mem_map_of_mem hop)
    obtain ⟨op', hop', heq⟩ := List.mem_map.mp hmem
    simp only [logColumns, Prod.mk.injEq] at heq
    exact ⟨op', hop', heq.1.trans hname, heq.2.1.trans hid⟩
  · intro op' hop'
    have hlogs : eventLog db' op'.name = eventLog db op'.name := by
      simp [eventLog, h.events]
    have hmem : logColumns op' ∈ db.operations.map logColumns ++ fresh :=
      hcolumns ▸ List.mem_map_of_mem hop'
    rcases List.mem_append.mp hmem with hold | hnew
    · obtain ⟨op, hop, heq⟩ := List.mem_map.mp hold
      simp only [logColumns, Prod.mk.injEq] at heq
      rw [hlogs, ← heq.1, ← heq.2.2]
      exact hlog.numbered op hop
    · -- a new operation has no events, since every event belongs to an old one
      have hnone : eventLog db op'.name = [] := by
        simp only [eventLog, List.map_eq_nil_iff, List.filter_eq_nil_iff, beq_iff_eq]
        intro e he hname
        obtain ⟨op, hop, hopname, -⟩ := hlog.owned e he
        have hnodup : (db'.operations.map (·.name)).Nodup := h.names
        rw [hnames, List.nodup_append] at hnodup
        refine hnodup.2.2 op.name (List.mem_map_of_mem hop) op'.name ?_ (hopname.trans hname)
        exact List.mem_map.mpr ⟨logColumns op', hnew, rfl⟩
      have hzero : op'.lastEventSequence = 0 := hfresh _ hnew
      rw [hlogs, hnone, hzero]
      exact Numbered.empty

theorem historyOK_step {history history' : List Database} {l : Label} (h : HistoryOK history)
    (hstep : Step R history l history') : HistoryOK history' := by
  cases hstep with
  | @batch db older body receivedAt since views hsince hviews =>
    unfold serveEvents serve
    split
    · rename_i cursor request hserved
      obtain ⟨hlog, hgrows, -⟩ := ingestEvents_eq_ok (h.sees hsince hviews) hserved
      exact h.cons hlog hgrows
    · exact h.cons (h.ok db List.mem_cons_self) (Grows.refl _)
  | @other db db' older hother =>
    exact h.cons ((h.ok db List.mem_cons_self).other hother)
      (show db.operationEvents <+: db'.operationEvents from hother.events ▸ List.prefix_rfl)

/-- In every history of racing batches, the numbers stored for an operation are
`1, …, last_event_sequence`, a stored body never changes, a rejected batch changes nothing,
and an accepted one did what it answered. -/
theorem eventLog_integrity {start : Database} (hstart : LogOK start) {labels : List Label}
    {history : List Database} (hrun : Run (Step R) [start] labels history) :
    (∀ db ∈ history, ∀ op ∈ db.operations,
      (db.operationEvents.filter fun e => e.operationId == op.operationId).map (·.sequence) =
        List.range' 1 op.lastEventSequence) ∧
    (history.Pairwise fun newer older => ∀ e ∈ older.operationEvents,
      storedBodies newer e.operationId e.sequence = [e.bodyHash]) ∧
    ∀ body receivedAt since views db older, history = db :: older → 1 ≤ since →
      (∀ view ∈ views, view ∈ history.take since) →
      match serveEvents R body receivedAt views db with
      | (.error _, after) => after = db
      | (.ok cursor, after) => Accepted R body receivedAt (history.take since) after cursor := by
  -- the invariant holds of the whole history
  have hhistory : HistoryOK history :=
    Run.invariant (I := HistoryOK) (fun _ _ _ => historyOK_step) hrun
      ⟨by simpa using hstart, List.pairwise_singleton _ _⟩
  refine ⟨fun db hdb op hop => ?_, ?_, ?_⟩
  · have hlog := hhistory.ok db hdb
    -- an event belongs to the operation whose id it has
    have hfilter : db.operationEvents.filter (fun e => e.operationId == op.operationId) =
        db.operationEvents.filter fun e => e.operation == op.name :=
      List.filter_congr fun e he =>
        Bool.eq_iff_iff.mpr (by simpa using (hlog.operation_iff hop he).symm)
    have hnumbered := hlog.numbered op hop
    rw [Numbered, eventLog, List.map_map] at hnumbered
    rw [hfilter]
    exact hnumbered
  · refine hhistory.grows.imp_of_mem fun hnewer _ hgrows e he => ?_
    exact (hhistory.ok _ hnewer).storedBodies_of_mem (hgrows.subset he)
  · rintro body receivedAt since views db older rfl hsince hviews
    unfold serveEvents serve
    split
    · rename_i hserved
      split at hserved <;> cases hserved
      rfl
    · rename_i hserved
      split at hserved
      · rename_i hok
        cases hserved
        exact (ingestEvents_eq_ok (hhistory.sees hsince hviews) hok).2.2
      · cases hserved

namespace Sample

open Dispatcher.Sample

/-- An event of the sample operation as its agent sends it. -/
def event (sequence : ℤ) (kind : String) : Json :=
  .obj [("sequence", .int sequence), ("attempt", .null), ("step", .null), ("kind", .str kind),
    ("details", .null), ("created_at", .str "2026-01-05T00:00:00Z")]

/-- The same with its instant as it is hashed. -/
def hashed (sequence : ℤ) (kind : String) : Json :=
  .obj [("sequence", .int sequence), ("attempt", .null), ("step", .null), ("kind", .str kind),
    ("details", .null), ("created_at", .str now.isoformat)]

def request (events : List Json) : Json :=
  .obj [("protocol_version", .str "1.0"), ("agent_id", .str "agent-1"),
    ("audience", .str "frappe-controller"), ("operation_id", .str operationId),
    ("events", .arr events)]

/-- A runtime that knows the digests of the events that occur. -/
def eventRuntime : Runtime :=
  { Dispatcher.Sample.runtime
      [((runtime [] []).dumps (hashed 1 "plan.started"),
          "b62083adc7fa5656bc3f1be8205283a8d345e599ae0d8930e0ba3304db5d7914"),
        ((runtime [] []).dumps (hashed 2 "step.started"),
          "c06b1fdfc753d07eaef86879a69f469379a48352b864752dad6a7912a5dc745a"),
        ((runtime [] []).dumps (hashed 3 "step.finished"),
          "ce25469480844e96790144f414eef798da217e8fab3e0437c7bb7e142cbf23be"),
        ((runtime [] []).dumps (hashed 3 "step.failed"),
          "89940702b39b108af14f0a1c7e9cf126a18079538f95705ec6c2e846ae9eaeff")] [] with
    fromisoformat := fun _ => .aware now }

/-- The first batch, one that overlaps it, and one that contradicts the second. -/
def firstBatch : Json := request [event 1 "plan.started", event 2 "step.started"]

@[inherit_doc firstBatch]
def overlapping : Json := request [event 2 "step.started", event 3 "step.finished"]

@[inherit_doc firstBatch]
def conflicting : Json := request [event 2 "step.started", event 3 "step.failed"]

/-- The versions after the first batch, after its resend, whose reads still saw the start, after
the overlapping batch, and after the conflicting one, which is sent twice: its reads began before
the overlapping batch was committed, then after. -/
def afterFirst : Database := (serveEvents eventRuntime firstBatch now [] database).2

@[inherit_doc afterFirst]
def afterResend : Database :=
  (serveEvents eventRuntime firstBatch now [database, database, database] afterFirst).2

@[inherit_doc afterFirst]
def afterOverlapping : Database := (serveEvents eventRuntime overlapping now [] afterResend).2

@[inherit_doc afterFirst]
def afterRace : Database :=
  (serveEvents eventRuntime conflicting now [afterResend, afterResend, afterResend]
    afterOverlapping).2

@[inherit_doc afterFirst]
def afterConflict : Database := (serveEvents eventRuntime conflicting now [] afterRace).2

def history : List Database :=
  [afterConflict, afterRace, afterOverlapping, afterResend, afterFirst, database]

theorem run_history : Run (Step eventRuntime) [database]
    [.batch firstBatch now 1 [], .batch firstBatch now 2 [database, database, database],
      .batch overlapping now 1 [],
      .batch conflicting now 2 [afterResend, afterResend, afterResend],
      .batch conflicting now 1 []] history := by
  have hraced : ∀ view ∈ [afterResend, afterResend, afterResend],
      view ∈ [afterOverlapping, afterResend, afterFirst, database].take 2 := by
    intro view hview
    have hresend : view = afterResend := by simpa using hview
    rw [hresend]
    exact List.mem_cons_of_mem _ List.mem_cons_self
  exact .snoc (.snoc (.snoc (.snoc (.snoc (.nil _) (.batch (by decide) (by simp)))
    (.batch (by decide) (by simp))) (.batch (by decide) (by simp)))
    (.batch (by decide) hraced)) (.batch (by decide) (by simp))

end Sample

/-- Two events, the same two again, one of them with a third, and another third event: the last
batch is refused both when it races the third event and when it comes after it, and nothing
changes. -/
theorem eventLog_integrity_sample :
    Sample.afterConflict.operationEvents.map (·.sequence) = [1, 2, 3] ∧
    (∀ db ∈ Sample.history, ∀ op ∈ db.operations,
      (db.operationEvents.filter fun e => e.operationId == op.operationId).map (·.sequence) =
        List.range' 1 op.lastEventSequence) ∧
    (Sample.history.Pairwise fun newer older => ∀ e ∈ older.operationEvents,
      storedBodies newer e.operationId e.sequence = [e.bodyHash]) ∧
    ∀ body receivedAt since views db older, Sample.history = db :: older →
      1 ≤ since → (∀ view ∈ views, view ∈ Sample.history.take since) →
      match serveEvents Sample.eventRuntime body receivedAt views db with
      | (.error _, after) => after = db
      | (.ok cursor, after) => Accepted Sample.eventRuntime body receivedAt
          (Sample.history.take since) after cursor := by
  have hstored : Sample.afterConflict.operationEvents.map (·.sequence) = [1, 2, 3] := by
    decide +kernel
  have hstart : LogOK Dispatcher.Sample.database :=
    { names := by decide, ids := by decide, owned := by decide, numbered := by decide }
  exact ⟨hstored, eventLog_integrity hstart Sample.run_history⟩

end FrappeRepository

end FrappeController
