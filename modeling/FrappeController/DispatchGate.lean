import FrappeController.TerminalStates

/-!
# Execution and dispatch along runs

An operation runs or succeeds only after it was dispatched, as long as agents report
execution of dispatched operations only (`executed_dispatched`). Result ingestion does not
check this: a report for an operation that still waits for approval is recorded
(`executed_undispatched`).
-/

namespace FrappeController
namespace Lifecycle

open Dispatcher FrappeStore FrappeRepository

variable {R : Runtime} {lifetime clockSkew : ℕ}
variable {history : List Database} {l : Label}

/-! ## Dispatch -/

/-- The agent executes, or executed, the operation. -/
def executing (state : OperationState) : Bool := state == .running || state == .succeeded

/-- The operation, its target or its bulk target is recorded as running or succeeded. -/
inductive Executed (db : Database) (op : ControllerOperation) : Prop
  | operation (h : executing op.state = true)
  | target {t : OperationTarget} (ht : t ∈ db.operationTargets) (hof : t.operation = op.name)
      (h : executing t.state = true)
  | bulkTarget {b : BulkOperationTarget} {state : OperationState} (hb : b ∈ db.bulkTargets)
      (hof : orNone op.bulkTarget = some b.name) (hstate : b.state = .child state)
      (h : executing state = true)

/-- An earlier dispatch, with the approvals satisfied, fixed the operation's command hash. -/
def Dispatched (R : Runtime) (lifetime : ℕ) (history : List Database) (op : ControllerOperation) :
    Prop :=
  ∃ db older now env digest,
    Transaction.committed (dispatch R lifetime op.name now) db :: db :: older <:+ history ∧
      envelope R lifetime db op.name now = .ok env ∧
      immutableCommandHash R env = .ok digest ∧ op.commandHash = some digest

/-- Agents report execution only on dispatched operations. -/
def Gated (R : Runtime) : List Database → Label → Prop
  | db :: _, .result body _ _ => ∀ op status, Report R db body op status →
      executing status = true → op.commandHash.isSome = true
  | _, _ => True

/-! ## What a transaction adds -/

/-- The dispatch with label `l` fixes the command hash of `op`, from the version `base`. -/
def Fixed (R : Runtime) (lifetime : ℕ) (l : Label) (base : Database) (name : String)
    (op : ControllerOperation) : Prop :=
  ∃ now env digest, l = .dispatch name now ∧ envelope R lifetime base name now = .ok env ∧
    immutableCommandHash R env = .ok digest ∧ op.commandHash = some digest

theorem Fixed.congr {base : Database} {name : String} {op op' : ControllerOperation}
    (h : Fixed R lifetime l base name op) (hsame : op'.commandHash = op.commandHash) :
    Fixed R lifetime l base name op' := by
  obtain ⟨now, env, digest, hlabel, henv, hdigest, hop⟩ := h
  exact ⟨now, env, digest, hlabel, henv, hdigest, hsame.trans hop⟩

theorem Fixed.isSome {base : Database} {name : String} {op : ControllerOperation}
    (h : Fixed R lifetime l base name op) : op.commandHash.isSome = true := by
  obtain ⟨-, -, digest, -, -, -, hdigest⟩ := h
  rw [hdigest]
  rfl

/-- The row `op'` of the version `db` comes from the row `op` the transaction began with. -/
structure Traced (R : Runtime) (lifetime : ℕ) (l : Label) (base db : Database)
    (op op' : ControllerOperation) : Prop where
  name : op'.name = op.name
  bulkTarget : op'.bulkTarget = op.bulkTarget
  hash : op'.commandHash = op.commandHash ∨ Fixed R lifetime l base op.name op'
  executed : Executed db op' → Executed base op ∨ op'.commandHash.isSome = true

theorem Traced.isSome {base db : Database} {op op' : ControllerOperation}
    (h : Traced R lifetime l base db op op') (hsome : op.commandHash.isSome = true) :
    op'.commandHash.isSome = true :=
  h.hash.elim (fun hsame => by rw [hsame, hsome]) Fixed.isSome

/-- A write may make rows running or succeeded only if `may` holds. -/
structure Executes (may : Prop) (f : ControllerOperation → ControllerOperation)
    (g : OperationTarget → OperationTarget) (h : BulkOperationTarget → BulkOperationTarget) :
    Prop where
  operation : ∀ op, executing (f op).state = true → executing op.state = true ∨ may
  target : ∀ t, executing (g t).state = true → executing t.state = true ∨ may
  bulkTarget : ∀ b state, (h b).state = .child state → executing state = true →
    b.state = .child state ∨ may

section Advance

variable {base db : Database} {name : String} {bulkTarget : Option String}
  {f : ControllerOperation → ControllerOperation} {g : OperationTarget → OperationTarget}
  {h : BulkOperationTarget → BulkOperationTarget}

/-- A write for the operation `name` executes that operation only, and only if it may. -/
theorem executed_advance {may : Prop} {q : ControllerOperation} (hkeys : KeepsKeys f g h)
    (hexecutes : Executes may f g h)
    (hmine : ∀ b, bulkTarget = some b → orNone q.bulkTarget = some b → q.name = name)
    (hexecuted : Executed (db.advance name bulkTarget f g h) (if q.name = name then f q else q)) :
    Executed db q ∨ (q.name = name ∧ may) := by
  have hkeep : (if q.name = name then f q else q).name = q.name ∧
      (if q.name = name then f q else q).bulkTarget = q.bulkTarget := by
    split <;> simp [hkeys.operation]
  cases hexecuted with
  | operation hstate =>
    split at hstate
    · rename_i hq
      exact (hexecutes.operation q hstate).imp .operation fun hmay => ⟨hq, hmay⟩
    · exact .inl (.operation hstate)
  | target ht' hof hstate =>
    obtain ⟨t, ht, rfl⟩ := mem_operationTargets_advance.mp ht'
    rw [hkeep.1] at hof
    split at hof
    · rename_i hq
      rw [if_pos hq] at hstate
      rw [(hkeys.target t).2] at hof
      exact (hexecutes.target t hstate).imp (.target ht hof) fun hmay => ⟨hof.symm.trans hq, hmay⟩
    · rename_i hother
      rw [if_neg hother] at hstate
      exact .inl (.target ht hof hstate)
  | @bulkTarget _ state hb' hof hstate hexec =>
    obtain ⟨b, hb, rfl⟩ := mem_bulkTargets_advance.mp hb'
    rw [hkeep.2] at hof
    split at hof
    · rename_i hq
      rw [if_pos hq] at hstate
      rw [hkeys.bulkTarget] at hof
      exact (hexecutes.bulkTarget b state hstate hexec).imp
        (fun hbefore => .bulkTarget hb hof hbefore hexec) fun hmay => ⟨hmine b.name hq hof, hmay⟩
    · rename_i hother
      rw [if_neg hother] at hstate
      exact .inl (.bulkTarget hb hof hstate hexec)

/-- A write traces every row to the row it traces before the write. -/
theorem traced_advance (hschema : Schema base) {op : ControllerOperation}
    (hop : op ∈ base.operations)
    (hbulk : ∀ name, bulkTarget = some name → orNone op.bulkTarget = some name)
    (hkeys : KeepsKeys f g h) (hexecutes : Executes (op.commandHash.isSome = true) f g h)
    (hhash : ∀ o, (f o).commandHash = o.commandHash ∨ Fixed R lifetime l base op.name (f o))
    (htraced : ∀ q' ∈ db.operations, ∃ q ∈ base.operations, Traced R lifetime l base db q q') :
    ∀ op' ∈ (db.advance op.name bulkTarget f g h).operations, ∃ q ∈ base.operations,
      Traced R lifetime l base (db.advance op.name bulkTarget f g h) q op' := by
  intro op' hop'
  obtain ⟨q', hq', rfl⟩ := mem_operations_advance.mp hop'
  obtain ⟨q, hq, hbefore⟩ := htraced q' hq'
  have hkeep : (if q'.name = op.name then f q' else q').name = q'.name ∧
      (if q'.name = op.name then f q' else q').bulkTarget = q'.bulkTarget := by
    split <;> simp [hkeys.operation]
  have hwritten : (if q'.name = op.name then f q' else q').commandHash = q'.commandHash ∨
      Fixed R lifetime l base q'.name (if q'.name = op.name then f q' else q') := by
    split
    · rename_i hmine
      rw [hmine]
      exact hhash q'
    · exact .inl rfl
  have hsome : q'.commandHash.isSome = true →
      (if q'.name = op.name then f q' else q').commandHash.isSome = true := fun hsome =>
    hwritten.elim (fun hsame => by rw [hsame, hsome]) Fixed.isSome
  refine ⟨q, hq, hkeep.1.trans hbefore.name, hkeep.2.trans hbefore.bulkTarget, ?_,
    fun hexecuted => ?_⟩
  · rw [← hbefore.name]
    rcases hwritten with hsame | hfixed
    · exact (hbefore.name ▸ hbefore.hash).imp (hsame.trans ·) fun h => Fixed.congr h hsame
    · exact .inr hfixed
  · have hmine : ∀ b, bulkTarget = some b → orNone q'.bulkTarget = some b → q'.name = op.name :=
      fun b hb hb' => hbefore.name.trans
        (hschema.bulk q hq op hop b (hbefore.bulkTarget ▸ hb') (hbulk b hb))
    rcases executed_advance hkeys hexecutes hmine hexecuted with hexecuted | ⟨hname, hmay⟩
    · exact (hbefore.executed hexecuted).imp_right hsome
    · have hqop : q = op := Table.eq_of_mem hschema.names hq hop (hbefore.name.symm.trans hname)
      exact .inr (hsome (hbefore.isSome (hqop ▸ hmay)))

end Advance

theorem traced_writes {base db : Database} (hschema : Schema base)
    (hgate : ∀ op r state, records R history base l op r state → executing state = true →
      op.commandHash.isSome = true)
    (h : Writes R lifetime clockSkew history l base db) :
    ∀ op' ∈ db.operations, ∃ op ∈ base.operations, Traced R lifetime l base db op op' := by
  induction h with
  | refl => exact fun op hop => ⟨op, hop, rfl, rfl, .inl rfl, .inl⟩
  | step _ hwrite ih =>
    cases hwrite with
    -- a dispatch fixes the hash, and nothing is executing yet
    | queue hlabel hop _ henv hdigest =>
      exact traced_advance hschema hop (fun _ h => by cases h)
        ⟨fun _ => ⟨rfl, rfl, rfl⟩, fun _ => ⟨rfl, rfl⟩, fun _ => rfl⟩
        ⟨fun _ h => (by cases h), fun _ h => (by cases h), fun _ _ h _ => .inl h⟩
        (fun _ => .inr ⟨_, _, _, hlabel, henv, hdigest, rfl⟩) ih
    | fail hop _ =>
      exact traced_advance hschema hop (fun _ h => h)
        ⟨fun _ => ⟨rfl, rfl, rfl⟩, fun _ => ⟨rfl, rfl⟩, fun _ => rfl⟩
        ⟨fun _ h => (by cases h), fun _ h => (by cases h),
          fun _ _ h hexec => (by cases h; cases hexec)⟩
        (fun _ => .inl rfl) ih
    | lease hop _ =>
      exact traced_advance hschema hop (fun _ h => by cases h)
        ⟨fun _ => ⟨rfl, rfl, rfl⟩, fun _ => ⟨rfl, rfl⟩, fun _ => rfl⟩
        ⟨fun _ h => (by cases h), fun _ h => (by cases h), fun _ _ h _ => .inl h⟩
        (fun _ => .inl rfl) ih
    | @record op r state errorCode hop hrecords =>
      -- a result moves to an executing state only what has a hash
      have hafter : ∀ previous, executing (stateAfter previous state) = true →
          executing previous = true ∨ op.commandHash.isSome = true := fun previous h => by
        unfold stateAfter at h
        split at h
        · exact .inl h
        · exact .inr (hgate op r state hrecords h)
      refine traced_advance hschema hop (fun _ h => h)
        ⟨fun _ => ⟨rfl, rfl, rfl⟩, fun _ => ⟨rfl, rfl⟩, fun _ => rfl⟩
        ⟨fun o h => hafter o.state h, fun t h => hafter t.state h, fun b state' h hexec => ?_⟩
        (fun _ => .inl rfl) ih
      simp only [recordBulkTarget] at h
      split at h
      · exact .inl h
      · cases h
        exact .inr (hgate op r state hrecords hexec)

/-- Other transactions execute nothing, and new operations are not dispatched. -/
theorem executed_other {db db' : Database} (h : OtherStep db db') {op' : ControllerOperation}
    (hop' : op' ∈ db'.operations) :
    (∃ op ∈ db.operations, SameRow op op' ∧ (Executed db' op' → Executed db op)) ∨
      (op'.commandHash = none ∧ ¬ Executed db' op') := by
  rcases h.old op' hop' with ⟨op, hop, hsame⟩ | hfresh
  · refine .inl ⟨op, hop, hsame, fun hexecuted => ?_⟩
    -- what shows an execution was there before: other transactions only cancel
    cases hexecuted with
    | operation hstate => exact .operation (hsame.state ▸ hstate)
    | @target t' ht' hof hstate =>
      rcases h.oldTarget t' ht' with ⟨t, ht, -, hoperation, hstate'⟩ | hwaiting
      · exact .target ht (hoperation.symm.trans (hof.trans hsame.name)) (hstate' ▸ hstate)
      · rw [hwaiting] at hstate
        cases hstate
    | @bulkTarget b' state hb' hof hstate hexec =>
      rw [hsame.bulkTarget] at hof
      rcases h.oldBulkTarget b' hb' with ⟨b, hb, hname, hmove⟩ | hplanned
      · rcases hmove with hmove | ⟨-, hmove | hmove⟩
        · exact .bulkTarget hb (hname ▸ hof) (hmove ▸ hstate) hexec
        all_goals
          rw [hmove] at hstate
          cases hstate
          cases hexec
      · rw [hplanned] at hstate
        cases hstate
  · refine .inr ⟨hfresh.commandHash, fun hexecuted => ?_⟩
    -- a new operation waits, and so do its target and its bulk target
    cases hexecuted with
    | operation hstate =>
      rw [hfresh.state] at hstate
      cases hstate
    | target ht hof hstate =>
      rw [hfresh.targets _ ht hof] at hstate
      cases hstate
    | bulkTarget hb hof hstate hexec =>
      rcases hfresh.bulkTargets _ hb hof with hplanned | hqueued
      · rw [hplanned] at hstate
        cases hstate
      · rw [hqueued] at hstate
        cases hstate
        cases hexec

/-! ## Runs -/

/-- What the newest version of a run keeps. -/
structure Safe (R : Runtime) (lifetime : ℕ) (history : List Database) : Prop where
  schema : ∀ db ∈ history.head?, Schema db
  dispatched : ∀ db ∈ history.head?, ∀ op ∈ db.operations, op.commandHash.isSome = true →
    Dispatched R lifetime history op
  executed : ∀ db ∈ history.head?, ∀ op ∈ db.operations, Executed db op →
    op.commandHash.isSome = true

theorem Dispatched.later {newer : Database} {op op' : ControllerOperation}
    (h : Dispatched R lifetime history op) (hname : op'.name = op.name)
    (hhash : op'.commandHash = op.commandHash) :
    Dispatched R lifetime (newer :: history) op' := by
  obtain ⟨db, older, now, env, digest, hsuffix, henv, hdigest, hop⟩ := h
  refine ⟨db, older, now, env, digest, ?_, hname ▸ henv, hdigest, hhash.trans hop⟩
  rw [hname]
  exact hsuffix.trans (List.suffix_cons _ _)

theorem safe_step {versions versions' : List Database} (hsafe : Safe R lifetime versions)
    (hgated : Gated R versions l) (h : Step R lifetime clockSkew versions l versions') :
    Safe R lifetime versions' := by
  obtain ⟨db, older, rfl⟩ : ∃ db older, versions = db :: older := by cases h <;> exact ⟨_, _, rfl⟩
  have hschema := hsafe.schema db rfl
  obtain ⟨db', rfl, hstep⟩ := step_cases hschema h
  -- each row of the new version stems from one of the old, or is new
  have hrow : ∀ op' ∈ db'.operations,
      (op'.commandHash.isSome = true → Dispatched R lifetime (db' :: db :: older) op') ∧
        (Executed db' op' → op'.commandHash.isSome = true) := by
    intro op' hop'
    rcases hstep with hwrites | hother
    -- a report of an execution is gated by the hypothesis on the step
    · have hgate : ∀ op r state, records R (db :: older) db l op r state →
          executing state = true → op.commandHash.isSome = true := by
        intro op r state hrecords hexec
        cases l with
        | result body receivedAt views =>
          rcases hrecords.recorded with rfl | ⟨-, rfl⟩
          · exact hgated op r.status hrecords.report hexec
          · cases hexec
        | _ => cases hrecords
      obtain ⟨op, hop, htraced⟩ := traced_writes hschema hgate hwrites op' hop'
      refine ⟨fun hsome => ?_, fun hexecuted => ?_⟩
      · rcases htraced.hash with hsame | ⟨now, env, digest, rfl, henv, hdigest, hfixed⟩
        · exact (hsafe.dispatched db rfl op hop (hsame ▸ hsome)).later htraced.name hsame
        · rw [← htraced.name] at henv h
          cases h
          exact ⟨db, older, now, env, digest, List.suffix_rfl, henv, hdigest, hfixed⟩
      · rcases htraced.executed hexecuted with hbefore | hsome
        · exact htraced.isSome (hsafe.executed db rfl op hop hbefore)
        · exact hsome
    · rcases executed_other hother hop' with ⟨op, hop, hsame, hexecuted⟩ | ⟨hnone, hidle⟩
      · rw [hsame.commandHash]
        exact ⟨fun hsome => (hsafe.dispatched db rfl op hop hsome).later hsame.name
          hsame.commandHash, fun h' => hsafe.executed db rfl op hop (hexecuted h')⟩
      · rw [hnone]
        exact ⟨fun hsome => (Bool.false_ne_true hsome).elim, fun h' => (hidle h').elim⟩
  refine ⟨fun v hv => ?_, fun v hv => ?_, fun v hv => ?_⟩ <;> cases hv
  · exact hstep.elim (schema_writes hschema) (·.schema)
  · exact fun op hop => (hrow op hop).1
  · exact fun op hop => (hrow op hop).2

/-- In every run in which agents report execution of dispatched operations only, an operation
that runs or succeeded was dispatched before. -/
theorem executed_dispatched {start : Database} {labels : List Label} {versions : List Database}
    (hschema : Schema start)
    (hstart : ∀ op ∈ start.operations, op.commandHash = none ∧ ¬ Executed start op)
    (hrun : Run (fun s l t => Step R lifetime clockSkew s l t ∧ Gated R s l) [start] labels
      versions) :
    ∀ db ∈ versions.head?, ∀ op ∈ db.operations, Executed db op →
      Dispatched R lifetime versions op := by
  have hsafe : Safe R lifetime versions := by
    refine hrun.invariant (I := Safe R lifetime) (fun s l t hs h => safe_step hs h.2 h.1) ?_
    refine ⟨fun db hdb => ?_, fun db hdb op hop hsome => ?_, fun db hdb op hop hexecuted => ?_⟩
      <;> cases hdb
    · exact hschema
    · rw [(hstart op hop).1] at hsome
      cases hsome
    · exact absurd hexecuted (hstart op hop).2
  exact fun db hdb op hop hexecuted =>
    hsafe.dispatched db hdb op hop (hsafe.executed db hdb op hop hexecuted)

namespace Sample

open Dispatcher.Sample

/-- A runtime that knows the digests of the empty payload and of the result, and gives every
other text the digest of the sample command. -/
def dispatchRuntime : Runtime :=
  { Dispatcher.Sample.runtime [] [(['{', '}'], .obj [])] with
    sha256 := fun text =>
      if text = ['{', '}'] then emptyDigest
      else if text = runtime.dumps running then runtime.sha256 text
      else "141fc63ca6d279f27851af265fec9280dea9f021f2cb36298c96871caa3b5140" }

/-- The sample database after the dispatch of its operation. -/
def dispatched : Database :=
  Transaction.committed (dispatch dispatchRuntime 300 operationId now) database

/-- The same after its agent reported that it runs. -/
def started : Database := (serveResult dispatchRuntime body now [] dispatched).2

end Sample

/-- The sample operation is dispatched, then it runs. -/
theorem executed_dispatched_sample : ∃ op ∈ Sample.started.operations,
    Executed Sample.started op ∧ Dispatched Sample.dispatchRuntime 300
      [Sample.started, Sample.dispatched, Dispatcher.Sample.database] op := by
  have hschema : Schema Dispatcher.Sample.database := by
    refine ⟨by decide, by decide, fun op hop op' hop' b hb => ?_⟩
    cases List.mem_singleton.mp hop
    cases hb
  have hidle : ∀ op ∈ Dispatcher.Sample.database.operations,
      op.commandHash = none ∧ ¬ Executed Dispatcher.Sample.database op := by
    intro op hop
    cases List.mem_singleton.mp hop
    refine ⟨rfl, fun hexecuted => ?_⟩
    cases hexecuted with
    | operation hstate => cases hstate
    | target ht _ hstate =>
      cases List.mem_singleton.mp ht
      cases hstate
    | bulkTarget hb => cases hb
  obtain ⟨hfixed, hrunning⟩ :
      (∀ op ∈ Sample.dispatched.operations, op.commandHash.isSome = true) ∧
        ∃ op ∈ Sample.started.operations, op.state = .running := by
    decide +kernel
  have hgated : Gated Sample.dispatchRuntime [Sample.dispatched, Dispatcher.Sample.database]
      (.result Sample.body Dispatcher.Sample.now []) := by
    intro op status hreport _
    obtain ⟨-, row, -, hrow, rfl⟩ := hreport.addressed
    exact hfixed _ (operationRow?_eq_some hrow).1
  obtain ⟨op, hop, hstate⟩ := hrunning
  have hexecuted : Executed Sample.started op := .operation (by rw [hstate]; rfl)
  have hrun : Run (fun s l t => Step Sample.dispatchRuntime 300 60 s l t ∧
      Gated Sample.dispatchRuntime s l) [Dispatcher.Sample.database]
      [.dispatch Dispatcher.Sample.operationId Dispatcher.Sample.now,
        .result Sample.body Dispatcher.Sample.now []]
      [Sample.started, Sample.dispatched, Dispatcher.Sample.database] :=
    .snoc (.snoc (.nil _) ⟨.dispatch, trivial⟩) ⟨.result (by simp), hgated⟩
  exact ⟨op, hop, hexecuted, executed_dispatched hschema hidle hrun _ rfl op hop hexecuted⟩

/-- The agent reports that the sample operation runs before anyone dispatched it. -/
theorem executed_undispatched : ∃ versions,
    Run (Step Sample.runtime 300 60) [Dispatcher.Sample.database]
      [.result Sample.body Dispatcher.Sample.now []] versions ∧
    ∃ db ∈ versions.head?, ∃ op ∈ db.operations, Executed db op ∧
      ¬ Dispatched Sample.runtime 300 versions op := by
  refine ⟨_, Run.single (.result (by simp)), _, rfl, ?_⟩
  have hrunning : ∃ op ∈ (serveResult Sample.runtime Sample.body Dispatcher.Sample.now []
    Dispatcher.Sample.database).2.operations, op.state = .running ∧ op.commandHash = none := by
    decide +kernel
  obtain ⟨op, hop, hstate, hnone⟩ := hrunning
  refine ⟨op, hop, .operation (by rw [hstate]; rfl), ?_⟩
  rintro ⟨-, -, -, -, digest, -, -, -, hdigest⟩
  rw [hnone] at hdigest
  cases hdigest

end Lifecycle

end FrappeController
