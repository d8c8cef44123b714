import FrappeController.OperationLifecycle

/-!
# Terminal states along runs

A terminal operation stays in its state, with the terminal states of its targets, as long as
no result arrives for an operation the controller closed without one (`terminal_absorbing`).
A quarantine closes an operation that way, and the next result reopens it
(`terminal_overwritten`).
-/

namespace FrappeController
namespace Lifecycle

open Dispatcher FrappeStore FrappeRepository

variable {R : Runtime} {lifetime clockSkew : ℕ}
variable {history : List Database} {l : Label}

/-! ## Terminal states -/

/-- What was terminal in `db` is the same in the later `db'`: the state of each operation, of
its target and of its bulk target. -/
structure Absorbs (db db' : Database) : Prop where
  operation : ∀ op ∈ db.operations, op.state.terminal = true →
    ∃ op' ∈ db'.operations, op'.name = op.name ∧ op'.bulkTarget = op.bulkTarget ∧
      op'.state = op.state
  target : ∀ op ∈ db.operations, op.state.terminal = true →
    ∀ t ∈ db.operationTargets, t.operation = op.name → t.state.terminal = true →
      ∃ t' ∈ db'.operationTargets, t'.name = t.name ∧ t'.operation = t.operation ∧
        t'.state = t.state
  bulkTarget : ∀ op ∈ db.operations, op.state.terminal = true →
    ∀ b ∈ db.bulkTargets, orNone op.bulkTarget = some b.name → b.state.terminal = true →
      ∃ b' ∈ db'.bulkTargets, b'.name = b.name ∧ b'.state = b.state

theorem Absorbs.refl (db : Database) : Absorbs db db where
  operation := fun op hop _ => ⟨op, hop, rfl, rfl, rfl⟩
  target := fun _ _ _ t ht _ _ => ⟨t, ht, rfl, rfl, rfl⟩
  bulkTarget := fun _ _ _ b hb _ _ => ⟨b, hb, rfl, rfl⟩

theorem Absorbs.trans {db db' db'' : Database} (h : Absorbs db db') (h' : Absorbs db' db'') :
    Absorbs db db'' where
  operation := fun op hop hterminal => by
    obtain ⟨op', hop', hname, hbulk, hstate⟩ := h.operation op hop hterminal
    obtain ⟨op'', hop'', hname', hbulk', hstate'⟩ := h'.operation op' hop' (hstate ▸ hterminal)
    exact ⟨op'', hop'', hname'.trans hname, hbulk'.trans hbulk, hstate'.trans hstate⟩
  target := fun op hop hterminal t ht hof hdone => by
    obtain ⟨op', hop', hname, -, hstate⟩ := h.operation op hop hterminal
    obtain ⟨t', ht', htname, htof, htstate⟩ := h.target op hop hterminal t ht hof hdone
    obtain ⟨t'', ht'', htname', htof', htstate'⟩ := h'.target op' hop' (hstate ▸ hterminal) t' ht'
      ((htof.trans hof).trans hname.symm) (htstate ▸ hdone)
    exact ⟨t'', ht'', htname'.trans htname, htof'.trans htof, htstate'.trans htstate⟩
  bulkTarget := fun op hop hterminal b hb hof hdone => by
    obtain ⟨op', hop', -, hbulk, hstate⟩ := h.operation op hop hterminal
    obtain ⟨b', hb', hbname, hbstate⟩ := h.bulkTarget op hop hterminal b hb hof hdone
    obtain ⟨b'', hb'', hbname', hbstate'⟩ := h'.bulkTarget op' hop' (hstate ▸ hterminal) b' hb'
      (hbulk ▸ hbname ▸ hof) (hbstate ▸ hdone)
    exact ⟨b'', hb'', hbname'.trans hbname, hbstate'.trans hbstate⟩

/-- Recording `state` for the operation changes none of its terminal rows. -/
structure Unchanged (db : Database) (op : ControllerOperation) (state : OperationState) : Prop where
  operation : state = .queued ∨ op.state = state
  target : ∀ t ∈ db.operationTargets, t.operation = op.name → t.state.terminal = true →
    state = .queued ∨ t.state = state
  bulkTarget : ∀ b ∈ db.bulkTargets, orNone op.bulkTarget = some b.name →
    b.state.terminal = true → state = .queued ∨ b.state = .child state

section Advance

variable {base db : Database} {op : ControllerOperation} {bulkTarget : Option String}
  {f : ControllerOperation → ControllerOperation} {g : OperationTarget → OperationTarget}
  {h : BulkOperationTarget → BulkOperationTarget}

/-- A write for one operation leaves the terminal rows of the others alone, and its own if
they are terminal and the write keeps them. -/
theorem absorbs_advance (hschema : Schema base) (habsorbs : Absorbs base db)
    (hop : op ∈ base.operations)
    (hbulk : ∀ name, bulkTarget = some name → orNone op.bulkTarget = some name)
    (hkeys : KeepsKeys f g h)
    (hstate : op.state.terminal = true → ∀ o, o.state = op.state → (f o).state = op.state)
    (htarget : op.state.terminal = true → ∀ t ∈ base.operationTargets, t.operation = op.name →
      t.state.terminal = true → ∀ t', t'.state = t.state → (g t').state = t.state)
    (hbulkTarget : op.state.terminal = true → ∀ b ∈ base.bulkTargets,
      orNone op.bulkTarget = some b.name → b.state.terminal = true →
      ∀ b', b'.state = b.state → (h b').state = b.state) :
    Absorbs base (db.advance op.name bulkTarget f g h) where
  operation := fun q hq hterminal => by
    obtain ⟨q', hq', hname, hbulkq, hqstate⟩ := habsorbs.operation q hq hterminal
    refine ⟨_, mem_operations_advance.mpr ⟨q', hq', rfl⟩, ?_⟩
    split
    · rename_i hmine
      have hqop : q = op := Table.eq_of_mem hschema.names hq hop (hname.symm.trans hmine)
      subst hqop
      exact ⟨(hkeys.operation q').1.trans hname, (hkeys.operation q').2.2.trans hbulkq,
        hstate hterminal q' hqstate⟩
    · exact ⟨hname, hbulkq, hqstate⟩
  target := fun q hq hterminal t ht hof hdone => by
    obtain ⟨t', ht', htname, htof, htstate⟩ := habsorbs.target q hq hterminal t ht hof hdone
    refine ⟨_, mem_operationTargets_advance.mpr ⟨t', ht', rfl⟩, ?_⟩
    split
    · rename_i hmine
      have hqop : q = op :=
        Table.eq_of_mem hschema.names hq hop ((htof.trans hof).symm.trans hmine)
      subst hqop
      exact ⟨(hkeys.target t').1.trans htname, (hkeys.target t').2.trans htof,
        htarget hterminal t ht hof hdone t' htstate⟩
    · exact ⟨htname, htof, htstate⟩
  bulkTarget := fun q hq hterminal b hb hof hdone => by
    obtain ⟨b', hb', hbname, hbstate⟩ := habsorbs.bulkTarget q hq hterminal b hb hof hdone
    refine ⟨_, mem_bulkTargets_advance.mpr ⟨b', hb', rfl⟩, ?_⟩
    split
    · rename_i hmine
      -- the bulk target belongs to one operation only, so the write is for `q`
      have hqop : q = op := Table.eq_of_mem hschema.names hq hop
        (hschema.bulk q hq op hop b.name hof (hbname ▸ hbulk _ hmine))
      subst hqop
      exact ⟨(hkeys.bulkTarget b').trans hbname, hbulkTarget hterminal b hb hof hdone b' hbstate⟩
    · exact ⟨hbname, hbstate⟩

end Advance

theorem not_terminal_of_leasable {op : ControllerOperation} {now : DateTime}
    (h : leasableState op now = true) : op.state.terminal = false := by
  simp only [leasableState, Bool.and_eq_true, Bool.or_eq_true, beq_iff_eq] at h
  rcases h.2 with hqueued | ⟨hleased, -⟩
  · rw [hqueued]
    rfl
  · rw [hleased]
    rfl

/-- A transaction absorbs if each result it records leaves terminal rows unchanged. -/
theorem absorbs_writes {base db : Database} (hschema : Schema base)
    (hquiet : ∀ op r state, records R history base l op r state → op ∈ base.operations →
      op.state.terminal = true → Unchanged base op state)
    (h : Writes R lifetime clockSkew history l base db) : Absorbs base db := by
  induction h with
  | refl => exact .refl _
  | @step db db' _ hwrite ih =>
    -- a write of an operation that is not terminal concerns no terminal row
    have hopen : ∀ {op : ControllerOperation} {bulkTarget : Option String}
        {f : ControllerOperation → ControllerOperation} {g : OperationTarget → OperationTarget}
        {h : BulkOperationTarget → BulkOperationTarget}, op ∈ base.operations →
        op.state.terminal = false →
        (∀ name, bulkTarget = some name → orNone op.bulkTarget = some name) →
        KeepsKeys f g h → Absorbs base (db.advance op.name bulkTarget f g h) :=
      fun hop hterminal hbulk hkeys => absorbs_advance hschema ih hop hbulk hkeys
        (fun h => by simp [hterminal] at h) (fun h => by simp [hterminal] at h)
        (fun h => by simp [hterminal] at h)
    cases hwrite with
    | queue _ hop hstate _ _ =>
      exact hopen hop (by rw [hstate]; rfl) (fun _ h => by cases h)
        ⟨fun _ => ⟨rfl, rfl, rfl⟩, fun _ => ⟨rfl, rfl⟩, fun _ => rfl⟩
    | fail hop hleasable =>
      exact hopen hop (not_terminal_of_leasable hleasable) (fun _ h => h)
        ⟨fun _ => ⟨rfl, rfl, rfl⟩, fun _ => ⟨rfl, rfl⟩, fun _ => rfl⟩
    | lease hop hleasable =>
      exact hopen hop (not_terminal_of_leasable hleasable) (fun _ h => by cases h)
        ⟨fun _ => ⟨rfl, rfl, rfl⟩, fun _ => ⟨rfl, rfl⟩, fun _ => rfl⟩
    -- a result may be of a terminal operation, and repeats its state then
    | @record op r state errorCode hop hrecords =>
      have hunchanged := hquiet op r state hrecords hop
      refine absorbs_advance hschema ih hop (fun _ h => h)
        ⟨fun _ => ⟨rfl, rfl, rfl⟩, fun _ => ⟨rfl, rfl⟩, fun _ => rfl⟩ ?_ ?_ ?_
      · intro hterminal o ho
        rcases (hunchanged hterminal).operation with hstate | hstate
        · simp [recordOperation, stateAfter, hstate, ho]
        · simp only [recordOperation, stateAfter, ho, hstate, ite_self]
      · intro hterminal t ht hof hdone t' ht'
        rcases (hunchanged hterminal).target t ht hof hdone with hstate | hstate
        · simp [recordTarget, stateAfter, hstate, ht']
        · simp only [recordTarget, stateAfter, ht', hstate, ite_self]
      · intro hterminal b hb hof hdone b' hb'
        rcases (hunchanged hterminal).bulkTarget b hb hof hdone with hstate | hstate
        · simp [recordBulkTarget, hstate, hb']
        · simp only [recordBulkTarget, hb', hstate, ite_self]

theorem absorbs_other {db db' : Database} (h : OtherStep db db') : Absorbs db db' where
  operation := fun op hop _ => by
    obtain ⟨op', hop', hsame⟩ := h.kept op hop
    exact ⟨op', hop', hsame.name, hsame.bulkTarget, hsame.state⟩
  target := fun _ _ _ t ht _ _ => h.keptTarget t ht
  bulkTarget := fun _ _ _ b hb _ hdone => by
    obtain ⟨b', hb', hname, hmove | ⟨hplanned, -⟩⟩ := h.keptBulkTarget b hb
    · exact ⟨b', hb', hname, hmove⟩
    · simp [hplanned, BulkTargetState.terminal] at hdone

/-! ### Stored results -/

/-- The operation stores the result that closed it. -/
def StoresTerminal (R : Runtime) (op : ControllerOperation) : Prop :=
  ∃ stored, storedResult R op = .ok (some stored) ∧ Ingestion.terminalText stored.status = true

/-- A result for a terminal operation comes after the result that closed it, or says what
its rows say already. -/
def Timely (R : Runtime) : List Database → Label → Prop
  | db :: _, .result body _ _ => ∀ op status, Report R db body op status →
      op.state.terminal = true →
        StoresTerminal R op ∨ (status ≠ .succeeded ∧ Unchanged db op status)
  | _, _ => True

/-- The results of the version are texts from `texts`, under their hashes. -/
def StoredFrom (R : Runtime) (texts : Set Text) (db : Database) : Prop :=
  ∀ op ∈ db.operations, ∀ hash, orNone op.resultHash = some hash →
    ∃ text ∈ texts, op.resultJson = some text ∧ hash = R.sha256 text

/-- The texts of the results a label submits. -/
def resultTexts (R : Runtime) : Label → List Text
  | .result body _ _ => [R.dumps (body.getField "result")]
  | _ => []

variable {texts : Set Text}

theorem storedFrom_advance {db : Database} {name : String} {bulkTarget : Option String}
    {f : ControllerOperation → ControllerOperation} {g : OperationTarget → OperationTarget}
    {h : BulkOperationTarget → BulkOperationTarget} (hdb : StoredFrom R texts db)
    (hf : ∀ op, ((f op).resultHash = op.resultHash ∧ (f op).resultJson = op.resultJson) ∨
      ∃ text ∈ texts, (f op).resultJson = some text ∧ (f op).resultHash = some (R.sha256 text)) :
    StoredFrom R texts (db.advance name bulkTarget f g h) := by
  intro op hop hash hhash
  obtain ⟨op₀, hop₀, rfl⟩ := mem_operations_advance.mp hop
  split at hhash
  · rename_i hmine
    rw [if_pos hmine]
    rcases hf op₀ with ⟨hkeep, hkeep'⟩ | ⟨text, htext, hjson, hstored⟩
    · rw [hkeep']
      exact hdb op₀ hop₀ hash (hkeep ▸ hhash)
    · refine ⟨text, htext, hjson, ?_⟩
      rw [hstored] at hhash
      exact (Option.some.inj (orNone_eq_some.mp hhash).1).symm
  · rename_i hother
    rw [if_neg hother]
    exact hdb op₀ hop₀ hash hhash

theorem storedFrom_writes {base db : Database} (hbase : StoredFrom R texts base)
    (htexts : ∀ text ∈ resultTexts R l, text ∈ texts)
    (h : Writes R lifetime clockSkew history l base db) : StoredFrom R texts db := by
  induction h with
  | refl => exact hbase
  | step _ hwrite ih =>
    cases hwrite with
    | record _ hrecords =>
      refine storedFrom_advance ih fun op => .inr ?_
      cases l with
      | result body receivedAt views =>
        have hmem := htexts _ List.mem_cons_self
        rw [← hrecords.text] at hmem
        exact ⟨_, hmem, rfl, congrArg some hrecords.hash⟩
      | _ => cases hrecords
    | _ => exact storedFrom_advance ih fun op => .inl ⟨rfl, rfl⟩

theorem storedFrom_other {db db' : Database} (hdb : StoredFrom R texts db)
    (h : OtherStep db db') : StoredFrom R texts db' := by
  intro op' hop' hash hhash
  rcases h.old op' hop' with ⟨op, hop, hsame⟩ | hfresh
  · rw [hsame.resultJson]
    exact hdb op hop hash (hsame.resultHash ▸ hhash)
  · simp [hfresh.resultHash, orNone] at hhash

theorem storedResult_eq_some {op : ControllerOperation} {stored : StoredResult}
    (h : storedResult R op = .ok (some stored)) :
    orNone op.resultHash = some stored.bodyHash ∧
      ((R.loads (op.resultJson.getD "null".toList)).map (·.getField "status")).bind Json.str? =
        some stored.status := by
  unfold storedResult at h
  split at h
  · cases h
  · rename_i bodyHash hhash
    dsimp only at h
    split at h
    · cases h
    · rename_i status hstatus
      cases h
      exact ⟨hhash, hstatus⟩

/-- Two rows that store the same hash store the same status. -/
theorem stored_status_eq (hinj : Set.InjOn R.sha256 texts) {db db' : Database}
    (hdb : StoredFrom R texts db) (hdb' : StoredFrom R texts db') {op op' : ControllerOperation}
    (hop : op ∈ db.operations) (hop' : op' ∈ db'.operations) {stored stored' : StoredResult}
    (h : storedResult R op = .ok (some stored)) (h' : storedResult R op' = .ok (some stored'))
    (hsame : stored.bodyHash = stored'.bodyHash) : stored.status = stored'.status := by
  obtain ⟨hhash, hstatus⟩ := storedResult_eq_some h
  obtain ⟨hhash', hstatus'⟩ := storedResult_eq_some h'
  obtain ⟨text, htext, hjson, heq⟩ := hdb op hop _ hhash
  obtain ⟨text', htext', hjson', heq'⟩ := hdb' op' hop' _ hhash'
  have htexts : text = text' := hinj htext htext' (by rw [← heq, ← heq', hsame])
  rw [hjson, htexts] at hstatus
  rw [hjson'] at hstatus'
  exact Option.some.inj (hstatus.symm.trans hstatus')

/-- A submission never follows the result that closed its operation. -/
theorem not_storesTerminal (hinj : Set.InjOn R.sha256 texts) {db : Database}
    (hstored : ∀ v ∈ history, StoredFrom R texts v) (hdb : StoredFrom R texts db) {body : Json}
    {op : ControllerOperation} {r : IngestedResult} {state : OperationState}
    (hop : op ∈ db.operations) (h : Submission R history db body op r state) :
    ¬ StoresTerminal R op := by
  rintro ⟨stored, hclosed, hterminal⟩
  obtain ⟨view, hview, existing, hexisting, hfollows, hexpected⟩ := h.follows
  rw [(storedResult_eq_some hclosed).1] at hexpected
  cases existing with
  | none => cases hexpected
  | some existing =>
    have hhash : stored.bodyHash = existing.bodyHash := Option.some.inj hexpected
    unfold FrappeRepository.result at hexisting
    split at hexisting
    · cases hexisting
    · rename_i row hrow
      have hstatus := stored_status_eq hinj hdb (hstored view hview) hop
        (operationRow?_eq_some hrow).1 hclosed hexisting hhash
      have hopen := (hfollows existing rfl).2.1
      rw [← hstatus, hterminal] at hopen
      cases hopen

/-! ### Runs -/

/-- What every version of a run keeps. -/
structure Closing (R : Runtime) (texts : Set Text) (history : List Database) : Prop where
  schema : ∀ db ∈ history.head?, Schema db
  stored : ∀ db ∈ history, StoredFrom R texts db
  absorbs : history.Pairwise fun newer older => Absorbs older newer

/-- A timely step keeps the terminal rows. -/
theorem absorbs_step (hinj : Set.InjOn R.sha256 texts) {db db' : Database} {older : List Database}
    (hclosing : Closing R texts (db :: older)) (htimely : Timely R (db :: older) l)
    (h : Writes R lifetime clockSkew (db :: older) l db db' ∨ OtherStep db db') :
    Absorbs db db' := by
  rcases h with hwrites | hother
  · refine absorbs_writes (hclosing.schema db rfl) (fun op r state hrecords hop hterminal => ?_)
      hwrites
    cases l with
    | result body receivedAt views =>
      rcases htimely op r.status hrecords.report hterminal with hclosed | ⟨hstatus, hunchanged⟩
      · exact absurd hclosed (not_storesTerminal hinj hclosing.stored
          (hclosing.stored db List.mem_cons_self) hop hrecords)
      · rcases hrecords.recorded with hrecorded | ⟨hsucceeded, -⟩
        · exact hrecorded ▸ hunchanged
        · exact absurd hsucceeded hstatus
    | _ => cases hrecords
  · exact absorbs_other hother

theorem closing_step (hinj : Set.InjOn R.sha256 texts) {versions versions' : List Database}
    (hclosing : Closing R texts versions) (htexts : ∀ text ∈ resultTexts R l, text ∈ texts)
    (htimely : Timely R versions l) (h : Step R lifetime clockSkew versions l versions') :
    Closing R texts versions' := by
  obtain ⟨db, older, rfl⟩ : ∃ db older, versions = db :: older := by cases h <;> exact ⟨_, _, rfl⟩
  obtain ⟨db', rfl, hstep⟩ := step_cases (hclosing.schema db rfl) h
  have hstored := hclosing.stored db List.mem_cons_self
  have habsorbs := absorbs_step hinj hclosing htimely hstep
  refine ⟨fun v hv => ?_, List.forall_mem_cons.mpr ⟨?_, hclosing.stored⟩,
    List.pairwise_cons.mpr ⟨fun v hv => ?_, hclosing.absorbs⟩⟩
  · cases hv
    exact hstep.elim (schema_writes (hclosing.schema db rfl)) (·.schema)
  · exact hstep.elim (storedFrom_writes hstored htexts) (storedFrom_other hstored)
  · rcases List.mem_cons.mp hv with rfl | hv
    · exact habsorbs
    · exact ((List.pairwise_cons.mp hclosing.absorbs).1 v hv).trans habsorbs

/-- Terminal states are absorbing in every run from a database without results in which each
result for a terminal operation is timely, as long as SHA-256 separates the results. -/
theorem terminal_absorbing {start : Database} {labels : List Label} {versions : List Database}
    (hschema : Schema start) (hstart : ∀ op ∈ start.operations, orNone op.resultHash = none)
    (hinj : Set.InjOn R.sha256 {text | text ∈ labels.flatMap (resultTexts R)})
    (hrun : Run (fun s l t => Step R lifetime clockSkew s l t ∧ Timely R s l) [start] labels
      versions) :
    versions.Pairwise fun newer older => Absorbs older newer := by
  have hlabels := hrun.restrict (P := fun l => ∀ text ∈ resultTexts R l,
    text ∈ {text | text ∈ labels.flatMap (resultTexts R)})
    fun l hl text htext => List.mem_flatMap.mpr ⟨l, hl, htext⟩
  have hclosing : Closing R {text | text ∈ labels.flatMap (resultTexts R)} [start] := {
    schema := fun db hdb => by cases hdb; exact hschema
    stored := fun db hdb op hop hash hhash => by
      cases List.mem_singleton.mp hdb
      rw [hstart op hop] at hhash
      cases hhash
    absorbs := List.pairwise_singleton _ _ }
  refine (hlabels.invariant (I := Closing R _) (fun s l t hs h => ?_) hclosing).absorbs
  exact closing_step hinj hs h.2 h.1.2 h.1.1

/-! ### A quarantined operation that runs again -/

namespace Sample

open Dispatcher.Sample

/-- The result that reports the sample operation as running. -/
def running : Json :=
  .obj [("status", .str "running"), ("operation_id", .str operationId),
    ("bench_id", .str "bench-1"), ("site_domain", .str "one.example"),
    ("operation", .str "site.migrate"), ("attempt", .int 0), ("max_attempts", .int 1),
    ("error_code", .null)]

def body : Json :=
  .obj [("protocol_version", .str "1.0"), ("agent_id", .str "agent-1"),
    ("audience", .str "frappe-controller"), ("operation_id", .str operationId),
    ("result", running)]

/-- A runtime that knows the digest of that result. -/
def runtime : Runtime :=
  Dispatcher.Sample.runtime
    [((Dispatcher.Sample.runtime [] []).dumps running,
      "018bbef20eaab208dd8fd341b64649d0d48944380cc1db596962f26d97bf2d3b")] []

/-- The sample operation leased to its agent, with a truncated command and an expired lease. -/
def leased : Database :=
  { database with
    operations := [{ Dispatcher.Sample.operation with
      state := .leased, commandJson := some ['{'], commandHash := some emptyDigest
      issuedAt := some now, expiresAt := some now, leaseExpiresAt := some now }]
    operationTargets := [{ operationTarget with state := .leased }] }

/-- The result that reports the sample operation as failed, and the request that carries it. -/
def failed : Json := .obj [("status", .str "failed"), ("error_code", .str "task_failed")]

@[inherit_doc failed]
def failedBody : Json :=
  .obj [("protocol_version", .str "1.0"), ("agent_id", .str "agent-1"),
    ("audience", .str "frappe-controller"), ("operation_id", .str Dispatcher.Sample.operationId),
    ("result", failed)]

/-- A runtime that knows both results. -/
def closingRuntime : Runtime :=
  Dispatcher.Sample.runtime
    [(runtime.dumps running, "018bbef20eaab208dd8fd341b64649d0d48944380cc1db596962f26d97bf2d3b"),
      (runtime.dumps failed, "105c8f8d14f87fde94d4770c344d1408b59eea63c630895dc3ccf61ad6817d46")]
    [(runtime.dumps running, running), (runtime.dumps failed, failed)]

/-- The sample operation after its quarantine, after the first and after the second delivery of
its failure, and after a late report that it runs. -/
def quarantined : Database :=
  Transaction.committed (leaseCommand closingRuntime 300 60 "agent-1" Dispatcher.Sample.now none
    (fun _ => true) []) leased

@[inherit_doc quarantined]
def closed : Database :=
  (serveResult closingRuntime failedBody Dispatcher.Sample.now [] quarantined).2

@[inherit_doc quarantined]
def redelivered : Database :=
  (serveResult closingRuntime failedBody Dispatcher.Sample.now [] closed).2

@[inherit_doc quarantined]
def late : Database :=
  (serveResult closingRuntime body Dispatcher.Sample.now [] redelivered).2

/-- The requests that lead to these versions. -/
def closingLabels : List Label :=
  [.lease "agent-1" Dispatcher.Sample.now none (fun _ => true) [],
    .result failedBody Dispatcher.Sample.now [], .result failedBody Dispatcher.Sample.now [],
    .result body Dispatcher.Sample.now []]

/-- The operation stores a terminal result. -/
def storesTerminal (op : ControllerOperation) : Bool :=
  (storedResult closingRuntime op).toOption.join.any fun stored =>
    Ingestion.terminalText stored.status

theorem storesTerminal_iff {op : ControllerOperation} :
    storesTerminal op = true ↔ StoresTerminal closingRuntime op := by
  unfold storesTerminal StoresTerminal
  cases storedResult closingRuntime op with
  | error e => simp [Except.toOption]
  | ok stored => cases stored <;> simp [Except.toOption]

/-- A result arrives in time once every operation stores its own. -/
theorem timely_of_stored {db : Database} (h : ∀ op ∈ db.operations, storesTerminal op = true)
    (older : List Database) (request : Json) (receivedAt : DateTime) (views : List Database) :
    Timely closingRuntime (db :: older) (.result request receivedAt views) := by
  intro op status hreport _
  obtain ⟨-, row, -, hrow, rfl⟩ := hreport.addressed
  exact .inl (storesTerminal_iff.mp (h row.op (operationRow?_eq_some hrow).1))

/-- The quarantine says of the rows what the first report says. -/
theorem timely_quarantined (older : List Database) :
    Timely closingRuntime (quarantined :: older) (.result failedBody Dispatcher.Sample.now []) := by
  intro op status hreport _
  obtain ⟨fields, errorCode, hheader⟩ := hreport.header
  have hfailed : Ingestion.resultHeader (failedBody.getField "result") =
      .ok ([("status", .str "failed"), ("error_code", .str "task_failed")], .failed,
        some "task_failed") := by rfl
  rw [hfailed] at hheader
  cases hheader
  have hrows : (∀ op ∈ quarantined.operations, op.state = .failed) ∧
      (∀ t ∈ quarantined.operationTargets, t.state = .failed) ∧
      quarantined.bulkTargets.length = 0 := by decide +kernel
  obtain ⟨-, row, -, hrow, rfl⟩ := hreport.addressed
  have hop := hrows.1 row.op (operationRow?_eq_some hrow).1
  refine .inr ⟨by decide, .inr hop, fun t ht _ _ => .inr (hrows.2.1 t ht), fun b hb => ?_⟩
  rw [List.length_eq_zero_iff.mp hrows.2.2] at hb
  cases hb

end Sample

/-- A quarantine closes the sample operation, its agent's report of the failure agrees with that
and is stored, and neither its second delivery nor a late report of another state moves it. -/
theorem terminal_absorbing_sample :
    [Sample.late, Sample.redelivered, Sample.closed, Sample.quarantined, Sample.leased].Pairwise
      fun newer older => Absorbs older newer := by
  have hschema : Schema Sample.leased := by
    refine ⟨by decide, by decide, fun op hop op' hop' b hb => ?_⟩
    cases List.mem_singleton.mp hop
    cases hb
  have hstored : (∀ op ∈ Sample.closed.operations, Sample.storesTerminal op = true) ∧
      ∀ op ∈ Sample.redelivered.operations, Sample.storesTerminal op = true := by
    decide +kernel
  -- two bodies are hashed in the run, and their digests differ
  have hinj : Set.InjOn Sample.closingRuntime.sha256 {text | text ∈
      Sample.closingLabels.flatMap (resultTexts Sample.closingRuntime)} := by
    have hdiffer : Sample.closingRuntime.sha256 (Sample.closingRuntime.dumps Sample.failed) ≠
        Sample.closingRuntime.sha256 (Sample.closingRuntime.dumps Sample.running) := by
      decide +kernel
    have htexts : ∀ text ∈ Sample.closingLabels.flatMap (resultTexts Sample.closingRuntime),
        text = Sample.closingRuntime.dumps Sample.failed ∨
          text = Sample.closingRuntime.dumps Sample.running := by
      intro text htext
      have hmem : text ∈ [Sample.closingRuntime.dumps Sample.failed,
        Sample.closingRuntime.dumps Sample.failed, Sample.closingRuntime.dumps Sample.running] :=
        htext
      simp only [List.mem_cons, List.not_mem_nil, or_false] at hmem
      rcases hmem with h | h | h
      · exact .inl h
      · exact .inl h
      · exact .inr h
    intro a ha b hb hab
    rcases htexts a ha with rfl | rfl <;> rcases htexts b hb with rfl | rfl
    · rfl
    · exact absurd hab hdiffer
    · exact absurd hab.symm hdiffer
    · rfl
  -- the lease, the failure, its repetition and a late report
  have hrun : Run (fun s l t => Step Sample.closingRuntime 300 60 s l t ∧
      Timely Sample.closingRuntime s l) [Sample.leased] Sample.closingLabels
      [Sample.late, Sample.redelivered, Sample.closed, Sample.quarantined, Sample.leased] :=
    .snoc (.snoc (.snoc (.snoc (.nil _) ⟨.lease, trivial⟩)
      ⟨.result (by simp), Sample.timely_quarantined _⟩)
      ⟨.result (by simp), Sample.timely_of_stored hstored.1 _ _ _ _⟩)
      ⟨.result (by simp), Sample.timely_of_stored hstored.2 _ _ _ _⟩
  exact terminal_absorbing hschema (by decide) hinj hrun

/-- A lease quarantines the operation, whose command is invalid, and closes it as failed. Then
its agent reports that it runs, and it is running again. -/
theorem terminal_overwritten : ∃ versions,
    Run (Step Sample.runtime 300 60) [Sample.leased]
      [.lease "agent-1" Dispatcher.Sample.now none (fun _ => true) [],
        .result Sample.body Dispatcher.Sample.now []] versions ∧
    ¬ versions.Pairwise fun newer older => Absorbs older newer := by
  refine ⟨_, .snoc (.snoc (.nil _) .lease) (.result (by simp)), fun hpairwise => ?_⟩
  let quarantined := Transaction.committed (leaseCommand Sample.runtime 300 60 "agent-1"
    Dispatcher.Sample.now none (fun _ => true) []) Sample.leased
  have hfailed : ∃ op ∈ quarantined.operations, op.state = .failed := by decide +kernel
  have hrunning : ∀ op ∈ (serveResult Sample.runtime Sample.body Dispatcher.Sample.now []
    quarantined).2.operations, op.state = .running := by decide +kernel
  obtain ⟨op, hop, hstate⟩ := hfailed
  have habsorbs := (List.pairwise_cons.mp hpairwise).1 quarantined List.mem_cons_self
  obtain ⟨op', hop', -, -, hsame⟩ := habsorbs.operation op hop (by rw [hstate]; rfl)
  rw [hrunning op' hop', hstate] at hsame
  cases hsame

end Lifecycle

end FrappeController
