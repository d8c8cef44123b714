import FrappeController.CanonicalJson
import FrappeController.ControllerStore
import FrappeController.DispatcherTheorems
import FrappeController.FrappeRepositoryTheorems
import FrappeController.Library.Replay

/-!
# The reference store and production on the same results

Both stores take the results of one operation, one after the other. The reference store
remembers every text it accepted; production remembers the newest. Both are instances of
`Replay`, with their own rules for a new result; the library says where they agree.
-/

namespace FrappeController
namespace ResultAgreement

open FrappeRepository
open Transaction (bind_apply_eq_ok query_eq_ok)

/-- A result as it is submitted: the request production takes, whose result object is also what
the reference store takes. -/
structure Submission where
  request : Json
  fields : List (String × Json)
  receivedAt : DateTime

variable (R : Runtime)

/-- The canonical text of a result. -/
def Submission.text (s : Submission) : Text := R.dumps (.obj s.fields)

/-! ## Both stores -/

/-- Production's answer and the version it leaves behind. -/
def submitProduction (db : Database) (s : Submission) : Except Exc IngestedResult × Database :=
  serve (Ingestion.ingestResult R (repository R) s.request s.receivedAt) [] db

/-- The reference store's answer and the store it leaves behind. -/
def submitReference (agentId operationId : String) (store : ControllerStore.Store)
    (s : Submission) : Except Exc Bool × ControllerStore.Store :=
  let body := ControllerStore.ingestResult R agentId operationId s.fields s.receivedAt
  (Transaction.outcome body store, Transaction.committed body store)

/-- Both stores accept the same submissions, and a repetition of an accepted text changes
nothing; `accepted` are the texts accepted before. -/
def Agree (agentId operationId : String) :
    Database → ControllerStore.Store → List Text → List Submission → Prop
  | _, _, _, [] => True
  | db, store, accepted, s :: rest =>
    let production := submitProduction R db s
    let reference := submitReference R agentId operationId store s
    production.1.isOk = reference.1.isOk ∧
      (s.text R ∈ accepted →
        production.1.isOk = true ∧ production.2 = db ∧ reference.2 = store) ∧
      Agree agentId operationId production.2 reference.2
        (if production.1.isOk then s.text R :: accepted else accepted) rest

/-! ## The rules for a new result -/

/-- The status a text reports. -/
def reported (text : Text) : Option OperationState :=
  (((R.loads text).map (·.getField "status")).bind Json.str?).bind OperationState.ofText?

/-- A creation reports success with its handover evidence, or predates that evidence. -/
def evidenced (row : IngestionRow) (text : Text) : Bool :=
  reported R text != some .succeeded || !isCreation row.op.operationType
    || creationHandoverReady R text row.op.credentialReceivedAt
      (row.requiredAppsJson.getD ['[', ']'])
    || match ((R.loads text).getD .null).getField "result" with
      | .obj result => !(Json.keys result).contains "readiness"
      | _ => false

/-- No key of the text is one the reference store refuses. -/
def clean (text : Text) : Bool :=
  (validateJson R true false ((R.loads text).getD .null)).isOk

/-- Production: a new result moves the status on. -/
def productionRule (row : IngestionRow) : Replay.Rule Text where
  valid := evidenced R row
  follows older newer :=
    match reported R older, reported R newer with
    | some status, some status' => Ingestion.monotonic status.text status'
    | _, _ => false

/-- The reference store: a new result follows no terminal one, and does not queue a running
operation again. -/
def referenceRule : Replay.Rule Text where
  valid := clean R
  follows older newer :=
    match reported R older with
    | some status => !(status.terminal || (status == .running && reported R newer == some .queued))
    | none => false

/-- The text moves the status of the newest accepted one on. -/
def MovesOn (accepted : List Text) (text : Text) : Prop :=
  ∀ last ∈ accepted.head?, ∃ status status', reported R last = some status ∧
    reported R text = some status' ∧
    (status = .queued ∧ status' ≠ .queued ∨ status = .running ∧ status'.terminal = true)

/-- The text reports the status of the newest accepted one again, and it is not terminal. -/
def RepeatsStatus (accepted : List Text) (text : Text) : Prop :=
  ∃ last ∈ accepted.head?, ∃ status, reported R last = some status ∧
    reported R text = some status ∧ status.terminal = false

/-- A text both stores treat alike after those accepted before, newest first: the newest one
again, or one not accepted before that, if it moves the status on, is evidenced exactly if it is
clean, and, if it repeats the status, is not clean. -/
def Compatible (row : IngestionRow) (accepted : List Text) (text : Text) : Prop :=
  accepted.head? = some text ∨ (text ∉ accepted ∧
    (MovesOn R accepted text → evidenced R row text = clean R text) ∧
    (RepeatsStatus R accepted text → clean R text = false))

/-- Every text is compatible where it stands. -/
def AllCompatible (row : IngestionRow) : List Text → List Text → Prop
  | _, [] => True
  | accepted, text :: rest => Compatible R row accepted text ∧
    AllCompatible row (Replay.remember (productionRule R row) accepted text) rest

/-! ## Submissions -/

/-- A body `_result` accepts for the operation. -/
structure WellFormed (db : Database) (agentId operationId : String) (s : Submission) : Prop where
  addressed : ∃ raw, Ingestion.common R s.request "result" = .ok (raw, agentId, operationId) ∧
    Json.get raw "result" = .obj s.fields
  accepted : ∃ identity r request, operation R db operationId = some identity ∧
    Ingestion.result R (repository R) identity (.obj s.fields) s.receivedAt
      { views := [], current := db } = .ok r request

/-- `json.loads` of the canonical text gives the object back. -/
structure Decodes (s : Submission) : Prop where
  keys : (Json.keys s.fields).Nodup
  loads : R.loads (s.text R) = some (Json.obj s.fields).sorted

/-- An operation of the agent that both stores hold, and none of its results. -/
structure Dispatched (db : Database) (store : ControllerStore.Store)
    (agentId operationId : String) (row : IngestionRow) : Prop where
  production : operationRow? db operationId = some row
  owner : row.agentId = agentId
  noResult : orNone row.op.resultHash = none
  reference : ∃ command, Table.get? store.commands operationId = some command ∧
    command.agentId = agentId ∧ command.resultState = none
  noSubmission : ∀ s ∈ store.resultSubmissions, s.operationId ≠ operationId

/-! ## Production -/

section Production

variable {R} {db db' : Database}

/-- What `_result` reads of an operation. -/
def identityOnly (identity : OperationIdentity) : OperationIdentity :=
  { identity with state := .queued, lastEventSequence := 0 }

/-- Both versions show the same operations, up to progress. -/
def SameIdentities (R : Runtime) (db db' : Database) : Prop :=
  ∀ operationId, (operation R db' operationId).map identityOnly =
    (operation R db operationId).map identityOnly

theorem identityOnly_inj {identity identity' : OperationIdentity}
    (h : identityOnly identity' = identityOnly identity) :
    identity'.operationId = identity.operationId ∧ identity'.agentId = identity.agentId ∧
      identity'.benchId = identity.benchId ∧ identity'.siteDomain = identity.siteDomain ∧
      identity'.operationType = identity.operationType := by
  simp only [identityOnly, OperationIdentity.mk.injEq] at h
  exact ⟨h.1, h.2.1, h.2.2.1, h.2.2.2.1, h.2.2.2.2.1⟩

theorem operation_of_same (hsame : SameIdentities R db db') {operationId : String}
    {identity : OperationIdentity} (h : operation R db operationId = some identity) :
    ∃ identity', operation R db' operationId = some identity' ∧
      identityOnly identity' = identityOnly identity := by
  have hmap := hsame operationId
  rw [h] at hmap
  exact Option.map_eq_some_iff.mp hmap

/-- A request whose reads see the current version. -/
theorem owner_apply (agent operationId : String) :
    Ingestion.owner (repository R) agent operationId { views := [], current := db } =
      match operation R db operationId with
      | none => .error (.unknownOperation "unknown operation") { views := [], current := db }
      | some identity =>
        if identity.agentId = agent then .ok identity { views := [], current := db }
        else .error (.ingestionOwnership "operation belongs to another agent")
          { views := [], current := db } := by
  show (match operation R db operationId with
    | none => throw (.unknownOperation "unknown operation")
    | some identity =>
      if identity.agentId = agent then return identity
      else throw (.ingestionOwnership "operation belongs to another agent") :
      EStateM Exc Request OperationIdentity) { views := [], current := db } = _
  cases operation R db operationId with
  | none => rfl
  | some identity =>
    dsimp only
    split <;> rfl

theorem owner_same (hsame : SameIdentities R db db') {agent operationId : String}
    {found : OperationIdentity} {request : Request}
    (h : Ingestion.owner (repository R) agent operationId { views := [], current := db } =
      .ok found request) :
    request = { views := [], current := db } ∧ ∃ found',
      Ingestion.owner (repository R) agent operationId { views := [], current := db' } =
        .ok found' { views := [], current := db' } ∧
      operation R db' operationId = some found' ∧
      identityOnly found' = identityOnly found := by
  rw [owner_apply] at h
  cases hfound : operation R db operationId with
  | none =>
    rw [hfound] at h
    cases h
  | some identity =>
    rw [hfound] at h
    dsimp only at h
    split at h
    · rename_i hagent
      cases h
      obtain ⟨found', hfound', hprogress⟩ := operation_of_same hsame hfound
      refine ⟨rfl, found', ?_, hfound', hprogress⟩
      rw [owner_apply, hfound']
      exact if_pos ((identityOnly_inj hprogress).2.1.trans hagent)
    · cases h

/-- The nested identity is checked alike in both versions. -/
theorem resultIdentity_same (hsame : SameIdentities R db db') {identity identity' : OperationIdentity}
    (hidentity : identityOnly identity' = identityOnly identity)
    {raw : List (String × Json)} {request : Request}
    (h : Ingestion.resultIdentity R (repository R) identity raw { views := [], current := db } =
      .ok () request) :
    request = { views := [], current := db } ∧
    Ingestion.resultIdentity R (repository R) identity' raw { views := [], current := db' } =
      .ok () { views := [], current := db' } := by
  obtain ⟨hid, hagent, hbench, -, htype⟩ := identityOnly_inj hidentity
  obtain ⟨nested, request₁, hquery, h₁⟩ := bind_apply_eq_ok.mp h
  obtain ⟨hnested, rfl⟩ := query_eq_ok.mp hquery
  -- a cancellation names another operation, whose identity is compared too
  split at h₁
  · rename_i hcancel
    obtain ⟨target, request₂, hquery', h₂⟩ := bind_apply_eq_ok.mp h₁
    obtain ⟨htarget, rfl⟩ := query_eq_ok.mp hquery'
    split at h₂
    · cases h₂
    · rename_i hmatch
      obtain ⟨targetOp, request₃, howner, h₃⟩ := bind_apply_eq_ok.mp h₂
      obtain ⟨rfl, targetOp', howner', -, htargetOp⟩ := owner_same hsame howner
      have hbench' := (identityOnly_inj htargetOp).2.2.1
      split at h₃
      · cases h₃
      · rename_i hsameBench
        cases h₃
        refine ⟨rfl, bind_apply_eq_ok.mpr ⟨nested, _, query_eq_ok.mpr ⟨hnested, rfl⟩, ?_⟩⟩
        rw [if_pos (htype.trans hcancel)]
        refine bind_apply_eq_ok.mpr ⟨target, _, query_eq_ok.mpr ⟨htarget, rfl⟩, ?_⟩
        rw [if_neg hmatch, hagent]
        refine bind_apply_eq_ok.mpr ⟨targetOp', _, howner', ?_⟩
        rw [hbench', hbench, if_neg hsameBench]
        rfl
  · rename_i hcancel
    split at h₁
    · cases h₁
    · rename_i hmatch
      cases h₁
      refine ⟨rfl, bind_apply_eq_ok.mpr ⟨nested, _, query_eq_ok.mpr ⟨hnested, rfl⟩, ?_⟩⟩
      rw [htype, hid, if_neg hcancel, if_neg hmatch]
      rfl

theorem resultTarget_same {identity identity' : OperationIdentity}
    (hidentity : identityOnly identity' = identityOnly identity)
    (raw : List (String × Json)) :
    Ingestion.resultTarget identity' raw = Ingestion.resultTarget identity raw := by
  obtain ⟨-, -, hbench, hsite, htype⟩ := identityOnly_inj hidentity
  rw [Ingestion.resultTarget, Ingestion.resultTarget, hbench, hsite, htype]

theorem resultShape_same (hsame : SameIdentities R db db') {identity identity' : OperationIdentity}
    (hidentity : identityOnly identity' = identityOnly identity)
    {raw : List (String × Json)} {status : OperationState} {error : Option String}
    {request : Request}
    (h : Ingestion.resultShape R (repository R) identity raw status error
      { views := [], current := db } = .ok () request) :
    request = { views := [], current := db } ∧
    Ingestion.resultShape R (repository R) identity' raw status error
      { views := [], current := db' } = .ok () { views := [], current := db' } := by
  simp only [Ingestion.resultShape] at h ⊢
  split at h
  · rename_i hrejected
    obtain ⟨hshape, rfl⟩ := query_eq_ok.mp h
    refine ⟨rfl, ?_⟩
    rw [if_pos hrejected]
    exact query_eq_ok.mpr ⟨hshape, rfl⟩
  · rename_i hrejected
    rw [if_neg hrejected]
    split at h
    · rename_i hshort
      obtain ⟨hshape, rfl⟩ := query_eq_ok.mp h
      refine ⟨rfl, ?_⟩
      rw [if_pos hshort]
      exact query_eq_ok.mpr ⟨hshape, rfl⟩
    · rename_i hshort
      rw [if_neg hshort]
      obtain ⟨_, request₁, hquery, h₁⟩ := bind_apply_eq_ok.mp h
      obtain ⟨hfields, rfl⟩ := query_eq_ok.mp hquery
      obtain ⟨_, request₂, hresult, h₂⟩ := bind_apply_eq_ok.mp h₁
      obtain ⟨rfl, hresult'⟩ := resultIdentity_same hsame hidentity hresult
      obtain ⟨htarget, rfl⟩ := query_eq_ok.mp h₂
      refine ⟨rfl, bind_apply_eq_ok.mpr ⟨(), _, query_eq_ok.mpr ⟨hfields, rfl⟩, ?_⟩⟩
      refine bind_apply_eq_ok.mpr ⟨(), _, hresult', query_eq_ok.mpr ⟨?_, rfl⟩⟩
      rw [resultTarget_same hidentity]
      exact htarget

/-- A body `_result` accepts in one version it accepts in the other. -/
theorem result_same (hsame : SameIdentities R db db') {identity identity' : OperationIdentity}
    (hidentity : identityOnly identity' = identityOnly identity) {value : Json}
    {now : DateTime} {r : IngestedResult} {request : Request}
    (h : Ingestion.result R (repository R) identity value now { views := [], current := db } =
      .ok r request) :
    Ingestion.result R (repository R) identity' value now { views := [], current := db' } =
      .ok r { views := [], current := db' } := by
  obtain ⟨⟨raw, status, error⟩, request₁, hquery, h₁⟩ := bind_apply_eq_ok.mp h
  obtain ⟨hheader, rfl⟩ := query_eq_ok.mp hquery
  obtain ⟨_, request₂, hshape, h₂⟩ := bind_apply_eq_ok.mp h₁
  obtain ⟨rfl, hshape'⟩ := resultShape_same hsame hidentity hshape
  obtain ⟨⟨encoded, digest⟩, request₃, hquery', h₃⟩ := bind_apply_eq_ok.mp h₂
  obtain ⟨hcanonical, rfl⟩ := query_eq_ok.mp hquery'
  cases h₃
  refine bind_apply_eq_ok.mpr ⟨(raw, status, error), _, query_eq_ok.mpr ⟨hheader, rfl⟩, ?_⟩
  refine bind_apply_eq_ok.mpr ⟨(), _, hshape', ?_⟩
  refine bind_apply_eq_ok.mpr ⟨(encoded, digest), _, query_eq_ok.mpr ⟨hcanonical, rfl⟩, ?_⟩
  rw [(identityOnly_inj hidentity).1]
  rfl

/-! ### What recording a result changes -/

/-- A result is recorded on the row of its operation; the rows it is joined with stay. -/
theorem operationRow?_record (op : ControllerOperation) (r : IngestedResult)
    (state : OperationState) (errorCode : Option String) (db : Database) (operationId : String) :
    operationRow? (record op r state errorCode db) operationId =
      (operationRow? db operationId).map fun row =>
        { row with op := if row.op.name = op.name then recordOperation r state errorCode row.op
          else row.op } := by
  have hoperations : (record op r state errorCode db).operations =
      Table.setValue op.name (recordOperation r state errorCode) db.operations := by
    unfold record Database.advance
    cases orNone op.bulkTarget <;> rfl
  -- a recorded result changes operations and targets only
  have hothers : (record op r state errorCode db).agents = db.agents ∧
      (record op r state errorCode db).benches = db.benches ∧
      (record op r state errorCode db).sites = db.sites := by
    unfold record Database.advance
    cases orNone op.bulkTarget <;> exact ⟨rfl, rfl, rfl⟩
  have hfind : (record op r state errorCode db).operations.find?
      (fun o => o.operationId == operationId) =
      (db.operations.find? fun o => o.operationId == operationId).map fun o =>
        if o.name = op.name then recordOperation r state errorCode o else o := by
    rw [hoperations]
    exact Table.find?_update (fun o : ControllerOperation => Named.name o = op.name)
      (recordOperation r state errorCode) (fun _ => rfl) db.operations
  rw [operationRow?, operationRow?, hfind, hothers.1, hothers.2.1, hothers.2.2]
  cases db.operations.find? fun o => o.operationId == operationId with
  | none => rfl
  | some o =>
    -- and of the operation none of the columns that find its rows
    have hcolumns : ∀ written, written = (if o.name = op.name then
        recordOperation r state errorCode o else o) → written.serverAgent = o.serverAgent ∧
        written.bench = o.bench ∧ written.managedSite = o.managedSite := by
      rintro _ rfl
      split <;> exact ⟨rfl, rfl, rfl⟩
    obtain ⟨hagent, hbench, hsite⟩ := hcolumns _ rfl
    simp only [Option.map_some, Option.bind_eq_bind, Option.bind_some, hagent, hbench, hsite]
    cases Table.get? db.agents o.serverAgent with
    | none => rfl
    | some agent => cases Table.get? db.benches o.bench <;> rfl

theorem sameIdentities_record (op : ControllerOperation) (r : IngestedResult)
    (state : OperationState) (errorCode : Option String) (db : Database) :
    SameIdentities R db (record op r state errorCode db) := by
  intro operationId
  rw [operation, operation, operationRow?_record]
  cases operationRow? db operationId with
  | none => rfl
  | some row =>
    simp only [Option.map_some, identityOnly]
    split <;> rfl

/-! ### A submission -/

/-- A commit against the hash the operation stores. -/
theorem commitResult_expected {operationId : String} {row : IngestionRow} {r : IngestedResult}
    (hrow : operationRow? db operationId = some row) :
    commitResult R row.agentId operationId (orNone row.op.resultHash) r db =
      match recordedState R row r with
      | .ok (state, errorCode) => .ok () (record row.op r state errorCode db)
      | .error e => .error e db := by
  simp only [commitResult, Transaction.bind_apply, Transaction.get_apply, hrow, ne_eq,
    not_true_eq_false, if_false, Transaction.query_apply]
  cases recordedState R row r <;> rfl

/-- A result is refused at the commit exactly for want of its handover evidence. -/
theorem recordedState_isOk {row : IngestionRow} {r : IngestedResult}
    (hstatus : reported R r.resultJson = some r.status) :
    (recordedState R row r).isOk = evidenced R row r.resultJson := by
  have hsucceeded : (reported R r.resultJson != some .succeeded) = !(r.status == .succeeded) := by
    rw [hstatus]
    rfl
  rw [evidenced, hsucceeded, recordedState]
  split
  · rename_i hrefused
    obtain ⟨hstatus', hcreation, hready⟩ := hrefused
    rw [hstatus', hcreation, hready]
    cases ((R.loads r.resultJson).getD .null).getField "result" with
    | obj result =>
      dsimp only
      generalize (Json.keys result).contains "readiness" = ready
      cases ready <;> rfl
    | _ => rfl
  · rename_i haccepted
    by_cases hstatus' : r.status = .succeeded
    · by_cases hcreation : isCreation row.op.operationType = true
      · have hready : creationHandoverReady R r.resultJson row.op.credentialReceivedAt
            (row.requiredAppsJson.getD ['[', ']']) = true := by
          by_contra hready
          exact haccepted ⟨hstatus', hcreation, by simpa using hready⟩
        simp [hready, Except.isOk, Except.toBool]
      · simp [hcreation, Except.isOk, Except.toBool]
    · simp [hstatus', Except.isOk, Except.toBool]

/-- What production stores after it accepted some texts: the newest. -/
structure Holds (R : Runtime) (start : Database) (operationId : String) (row : IngestionRow)
    (accepted : List Text) (db : Database) : Prop where
  identities : SameIdentities R start db
  stored : ∃ row', operationRow? db operationId = some row' ∧ row'.agentId = row.agentId ∧
    row'.op.operationType = row.op.operationType ∧
    row'.op.credentialReceivedAt = row.op.credentialReceivedAt ∧
    row'.requiredAppsJson = row.requiredAppsJson ∧
    orNone row'.op.resultHash = accepted.head?.map R.sha256 ∧
    ∀ text ∈ accepted.head?, row'.op.resultJson = some text

theorem evidenced_congr {row row' : IngestionRow}
    (htype : row'.op.operationType = row.op.operationType)
    (hcredential : row'.op.credentialReceivedAt = row.op.credentialReceivedAt)
    (happs : row'.requiredAppsJson = row.requiredAppsJson) (text : Text) :
    evidenced R row' text = evidenced R row text := by
  rw [evidenced, evidenced, htype, hcredential, happs]

/-- The stored result is the newest text, by its digest and its status. -/
theorem storedResult_newest {op : ControllerOperation} {text : Text} {status : OperationState}
    (hhash : orNone op.resultHash = some (R.sha256 text)) (hjson : op.resultJson = some text)
    (hstatus : reported R text = some status) :
    storedResult R op = .ok (some {
      operationId := op.operationId, status := status.text, bodyHash := R.sha256 text
      resultJson := text }) := by
  obtain ⟨s, hs, hof⟩ := Option.bind_eq_some_iff.mp hstatus
  rw [storedResult, hhash, hjson, OperationState.ofText?_eq_some hof]
  dsimp only [Option.getD_some]
  rw [hs]

/-- A decoded body reports the status it was submitted with. -/
theorem reported_text {s : Submission} (hdecodes : Decodes R s) {status : OperationState}
    {raw : List (String × Json)} {error : Option String}
    (h : Ingestion.resultHeader (.obj s.fields) = .ok (raw, status, error)) :
    reported R (s.text R) = some status := by
  obtain ⟨text, htext, hof, -⟩ := resultHeader_status h
  have hraw : raw = s.fields := by
    have hobj := resultHeader_eq_ok h
    exact (Json.obj.inj hobj).symm
  rw [reported, hdecodes.loads, Option.map_some, Option.bind_some]
  show ((Json.get (sortByKey (Json.sortedFields s.fields)) "status").str?).bind _ = _
  rw [Json.getField_sorted hdecodes.keys, ← hraw, htext]
  exact hof

/-- A commit that ends its request. -/
theorem serve_commit {operationId : String} {row : IngestionRow} {r : IngestedResult}
    (hrow : operationRow? db operationId = some row) :
    serve (do
        (repository R).commitResult row.agentId operationId (orNone row.op.resultHash) r
        return r) [] db =
      match recordedState R row r with
      | .ok (state, errorCode) => (.ok r, record row.op r state errorCode db)
      | .error e => (.error e, db) := by
  have hcommit : (repository R).commitResult row.agentId operationId (orNone row.op.resultHash) r
      { views := [], current := db } = locked (commitResult R row.agentId operationId
        (orNone row.op.resultHash) r) { views := [], current := db } := rfl
  rw [serve, Transaction.bind_apply, hcommit, locked, commitResult_expected hrow]
  cases recordedState R row r <;> rfl

/-- A recorded result is the newest one. -/
theorem holds_record {start : Database} {operationId : String} {row row' : IngestionRow}
    {accepted : List Text} (hholds : Holds R start operationId row accepted db)
    (hrow' : operationRow? db operationId = some row') {r : IngestedResult}
    (hhash : r.bodyHash = R.sha256 r.resultJson) (hdigest : r.bodyHash ≠ "")
    (state : OperationState) (errorCode : Option String) :
    Holds R start operationId row (r.resultJson :: accepted) (record row'.op r state errorCode db) where
  identities := fun id =>
    (sameIdentities_record row'.op r state errorCode db id).trans (hholds.identities id)
  stored := by
    obtain ⟨row₀, hrow₀, hagent, htype, hcredential, happs, -, -⟩ := hholds.stored
    rw [hrow'] at hrow₀
    cases hrow₀
    refine ⟨{ row' with op := recordOperation r state errorCode row'.op }, ?_, hagent, htype,
      hcredential, happs, ?_, ?_⟩
    · rw [operationRow?_record, hrow', Option.map_some, if_pos rfl]
    · show orNone (some r.bodyHash) = some (R.sha256 r.resultJson)
      rw [← hhash]
      exact orNone_eq_some.mpr ⟨rfl, hdigest⟩
    · rintro text ⟨⟩
      rfl

/-- A new result is recorded if its evidence suffices. -/
theorem commit_step {start : Database} {operationId : String} {row row' : IngestionRow}
    {accepted : List Text} (hholds : Holds R start operationId row accepted db)
    (hrow' : operationRow? db operationId = some row') {r : IngestedResult}
    (hhash : r.bodyHash = R.sha256 r.resultJson) (hdigest : r.bodyHash ≠ "")
    (hreported : reported R r.resultJson = some r.status)
    {served : Except Exc IngestedResult × Database}
    (h : served = serve (do
        (repository R).commitResult row'.agentId operationId (orNone row'.op.resultHash) r
        return r) [] db) :
    served.1.isOk = evidenced R row r.resultJson ∧
      Holds R start operationId row
        (if evidenced R row r.resultJson = true then r.resultJson :: accepted else accepted)
        served.2 := by
  have hevidence : (recordedState R row' r).isOk = evidenced R row r.resultJson := by
    obtain ⟨row₀, hrow₀, -, htype, hcredential, happs, -, -⟩ := hholds.stored
    rw [hrow'] at hrow₀
    cases hrow₀
    rw [recordedState_isOk hreported, evidenced_congr htype hcredential happs]
  rw [h, serve_commit hrow', ← hevidence]
  cases recordedState R row' r with
  | ok recorded =>
    exact ⟨rfl, holds_record hholds hrow' hhash hdigest recorded.1 recorded.2⟩
  | error e => exact ⟨rfl, hholds⟩

/-- Production's answer to a submission it reads, by the result stored before. -/
theorem submitProduction_read {s : Submission} {raw : List (String × Json)}
    {agentId operationId : String} {identity : OperationIdentity} {r : IngestedResult}
    {existing : Option StoredResult}
    (hcommon : Ingestion.common R s.request "result" = .ok (raw, agentId, operationId))
    (hraw : Json.get raw "result" = .obj s.fields)
    (howner : Ingestion.owner (repository R) agentId operationId { views := [], current := db } =
      .ok identity { views := [], current := db })
    (hresult : Ingestion.result R (repository R) identity (.obj s.fields) s.receivedAt
      { views := [], current := db } = .ok r { views := [], current := db })
    (hexisting : result R db operationId = .ok existing) :
    submitProduction R db s = serve (match existing with
      | none => do
        (repository R).commitResult agentId operationId none r
        return r
      | some existing =>
        if existing.bodyHash = r.bodyHash then return r
        else if Ingestion.terminalText existing.status then
          throw (.ingestionConflict "terminal result immutable")
        else if !Ingestion.monotonic existing.status r.status then
          throw (.ingestionConflict "non-monotonic result")
        else do
          (repository R).commitResult agentId operationId (some existing.bodyHash) r
          return r) [] db := by
  have hread : (repository R).result operationId { views := [], current := db } =
      .ok existing { views := [], current := db } :=
    Transaction.query_ok (f := fun request : Request => result R request.current operationId)
      hexisting
  have hquery : Transaction.query (fun _ : Request => Ingestion.common R s.request "result")
      { views := [], current := db } =
      .ok (raw, agentId, operationId) { views := [], current := db } :=
    Transaction.query_ok hcommon
  rw [submitProduction, serve, serve]
  cases existing <;>
    simp only [Ingestion.ingestResult, Transaction.bind_apply, hquery, howner, hraw, hresult,
      hread]

/-- A submission as production reads it: the row it is for, and the result it decodes to. -/
structure Incoming (R : Runtime) (db : Database) (operationId : String) (s : Submission)
    (row : IngestionRow) (r : IngestedResult) : Prop where
  found : operationRow? db operationId = some row
  addressed : ∃ raw, Ingestion.common R s.request "result" = .ok (raw, row.agentId, operationId) ∧
    Json.get raw "result" = .obj s.fields
  accepted : ∃ identity,
    Ingestion.owner (repository R) row.agentId operationId { views := [], current := db } =
      .ok identity { views := [], current := db } ∧
    Ingestion.result R (repository R) identity (.obj s.fields) s.receivedAt
      { views := [], current := db } = .ok r { views := [], current := db }
  text : r.resultJson = s.text R
  hash : r.bodyHash = R.sha256 r.resultJson
  digest : r.bodyHash ≠ ""
  reports : reported R r.resultJson = some r.status

/-- A body that was accepted for the operation at first is read the same way later. -/
theorem incoming_of_wellFormed {start : Database} {operationId : String} {row : IngestionRow}
    {accepted : List Text} (hholds : Holds R start operationId row accepted db) {s : Submission}
    (hwf : WellFormed R start row.agentId operationId s) (hdecodes : Decodes R s)
    (hdigest : R.sha256 (s.text R) ≠ "") : ∃ row' r, Incoming R db operationId s row' r := by
  obtain ⟨raw, hcommon, hraw⟩ := hwf.addressed
  obtain ⟨identity₀, r, request, hidentity₀, hresult₀⟩ := hwf.accepted
  obtain ⟨identity, hidentity, hsame⟩ := operation_of_same hholds.identities hidentity₀
  have hresult := result_same hholds.identities hsame hresult₀
  obtain ⟨⟨htext, hhash, fields, errorCode, hheader⟩, -, -⟩ :=
    result_eq_ok (P := fun _ => True) ⟨trivial, fun _ _ => trivial⟩ hresult₀
  have hsubmitted : r.resultJson = s.text R := htext
  obtain ⟨row', hrow', hagent, -⟩ := hholds.stored
  have howner : Ingestion.owner (repository R) row'.agentId operationId
      { views := [], current := db } = .ok identity { views := [], current := db } := by
    rw [owner_apply, hidentity]
    obtain ⟨found, hfound, -, hidentityAgent, -⟩ := operation_eq_some hidentity
    rw [hrow'] at hfound
    cases hfound
    exact if_pos hidentityAgent
  refine ⟨row', r, hrow', ⟨raw, by rw [hagent]; exact hcommon, hraw⟩, ⟨identity, howner, hresult⟩,
    hsubmitted, hhash, ?_, ?_⟩
  · rw [hhash, hsubmitted]
    exact hdigest
  · rw [hsubmitted]
    exact reported_text hdecodes hheader

section Incoming

variable {start : Database} {operationId : String} {row row' : IngestionRow} {s : Submission}
  {r : IngestedResult} (h : Incoming R db operationId s row' r)
include h

theorem Incoming.result_eq : result R db operationId = storedResult R row'.op := by
  rw [result, h.found]

/-- What the row stores of the results accepted before. -/
theorem Incoming.newest {accepted : List Text}
    (hholds : Holds R start operationId row accepted db) :
    orNone row'.op.resultHash = accepted.head?.map R.sha256 ∧
      ∀ text ∈ accepted.head?, row'.op.resultJson = some text := by
  obtain ⟨row₀, hrow₀, -, -, -, -, hhash, hjson⟩ := hholds.stored
  rw [h.found] at hrow₀
  cases hrow₀
  exact ⟨hhash, hjson⟩

/-- The first result of an operation. -/
theorem Incoming.first (hholds : Holds R start operationId row [] db) :
    (submitProduction R db s).1.isOk = Replay.answerNewest (productionRule R row) [] (s.text R) ∧
      Holds R start operationId row (Replay.remember (productionRule R row) [] (s.text R))
        (submitProduction R db s).2 := by
  obtain ⟨raw, hcommon, hraw⟩ := h.addressed
  obtain ⟨identity, howner, hresult⟩ := h.accepted
  have hnone : orNone row'.op.resultHash = none := (h.newest hholds).1
  have hstored : result R db operationId = .ok none := by rw [h.result_eq, storedResult, hnone]
  have hsubmit := submitProduction_read hcommon hraw howner hresult hstored
  rw [← hnone] at hsubmit
  obtain ⟨hanswer, hnext⟩ := commit_step hholds h.found h.hash h.digest h.reports hsubmit
  rw [h.text] at hanswer hnext
  constructor
  · rw [hanswer, (Replay.answerNewest_of_ne (by simp)).1]
    exact (Bool.and_true _).symm
  · rw [(Replay.answerNewest_of_ne (by simp)).2]
    simpa [Replay.Rule.admits, productionRule] using hnext

/-- The newest result again is answered, and nothing is written. -/
theorem Incoming.again {status : OperationState}
    (hlastHash : orNone row'.op.resultHash = some (R.sha256 (s.text R)))
    (hlastJson : row'.op.resultJson = some (s.text R))
    (hstatus : reported R (s.text R) = some status) :
    submitProduction R db s = (.ok r, db) := by
  obtain ⟨raw, hcommon, hraw⟩ := h.addressed
  obtain ⟨identity, howner, hresult⟩ := h.accepted
  have hstored := storedResult_newest hlastHash hlastJson hstatus
  rw [← h.result_eq] at hstored
  have hsubmit := submitProduction_read hcommon hraw howner hresult hstored
  have hsame : R.sha256 (s.text R) = r.bodyHash := by rw [h.hash, h.text]
  dsimp only at hsubmit
  rw [if_pos hsame] at hsubmit
  exact hsubmit

/-- Another result is recorded if it moves the status on and its evidence suffices. -/
theorem Incoming.next {last : Text} {earlier : List Text} {status : OperationState}
    (hholds : Holds R start operationId row (last :: earlier) db)
    (hstatus : reported R last = some status) (hother : R.sha256 last ≠ r.bodyHash) :
    (submitProduction R db s).1.isOk = (productionRule R row).admits (last :: earlier) (s.text R) ∧
      Holds R start operationId row
        (if (productionRule R row).admits (last :: earlier) (s.text R) = true then
          s.text R :: last :: earlier else last :: earlier) (submitProduction R db s).2 := by
  obtain ⟨raw, hcommon, hraw⟩ := h.addressed
  obtain ⟨identity, howner, hresult⟩ := h.accepted
  obtain ⟨hlastHash, hlastJson⟩ := h.newest hholds
  have hstored := storedResult_newest hlastHash (hlastJson last rfl) hstatus
  rw [← h.result_eq] at hstored
  have hsubmit := submitProduction_read hcommon hraw howner hresult hstored
  dsimp only at hsubmit
  rw [if_neg hother] at hsubmit
  have hfollows : (productionRule R row).follows last (s.text R) =
      Ingestion.monotonic status.text r.status := by
    have hreported := h.reports
    rw [h.text] at hreported
    simp only [productionRule, hstatus, hreported]
  have hadmits : (productionRule R row).admits (last :: earlier) (s.text R) =
      (evidenced R row (s.text R) && Ingestion.monotonic status.text r.status) := by
    rw [Replay.Rule.admits, List.head?_cons, Option.map_some, Option.getD_some, hfollows]
    rfl
  rw [hadmits]
  cases hmonotonic : Ingestion.monotonic status.text r.status with
  | true =>
    have hopen : Ingestion.terminalText status.text = false := by
      rw [Ingestion.terminalText, OperationState.ofText?_text]
      revert hmonotonic
      cases status <;> simp [Ingestion.monotonic, OperationState.text, OperationState.terminal]
    rw [hopen, hmonotonic] at hsubmit
    have hcommitted : submitProduction R db s = serve (do
        (repository R).commitResult row'.agentId operationId (orNone row'.op.resultHash) r
        return r) [] db := by
      rw [hsubmit, hlastHash]
      rfl
    obtain ⟨hanswer, hnext⟩ := commit_step hholds h.found h.hash h.digest h.reports hcommitted
    rw [h.text] at hanswer hnext
    rw [Bool.and_true]
    exact ⟨hanswer, hnext⟩
  | false =>
    -- whether the newest result is terminal or not, an exception leaves the row as it was
    have hrefused : (submitProduction R db s).1.isOk = false ∧
        (submitProduction R db s).2 = db := by
      rw [hsubmit, hmonotonic]
      split
      · exact ⟨rfl, rfl⟩
      · exact ⟨rfl, rfl⟩
    rw [hrefused.1, hrefused.2, Bool.and_false]
    exact ⟨rfl, hholds⟩

end Incoming

/-- Production's answer to a submission is the rule's, and it stores what the rule remembers. -/
theorem submitProduction_step {start : Database} {operationId : String} {row : IngestionRow}
    {accepted : List Text} (hholds : Holds R start operationId row accepted db) {s : Submission}
    (hwf : WellFormed R start row.agentId operationId s) (hdecodes : Decodes R s)
    (hstatuses : ∀ text ∈ accepted, (reported R text).isSome = true)
    (hsha : ∀ text ∈ accepted, R.sha256 text = R.sha256 (s.text R) → text = s.text R)
    (hdigest : R.sha256 (s.text R) ≠ "") :
    (submitProduction R db s).1.isOk =
        Replay.answerNewest (productionRule R row) accepted (s.text R) ∧
      Holds R start operationId row
        (Replay.remember (productionRule R row) accepted (s.text R)) (submitProduction R db s).2 ∧
      (accepted.head? = some (s.text R) → (submitProduction R db s).2 = db) := by
  obtain ⟨row', r, hincoming⟩ := incoming_of_wellFormed hholds hwf hdecodes hdigest
  cases accepted with
  | nil =>
    obtain ⟨hanswer, hnext⟩ := hincoming.first hholds
    exact ⟨hanswer, hnext, fun h => by cases h⟩
  | cons last earlier =>
    obtain ⟨status, hstatus⟩ := Option.isSome_iff_exists.mp (hstatuses last List.mem_cons_self)
    by_cases hlast : last = s.text R
    · obtain ⟨hlastHash, hlastJson⟩ := hincoming.newest hholds
      have hdone : submitProduction R db s = (.ok r, db) := by
        rw [hlast] at hlastHash hstatus hlastJson
        exact hincoming.again hlastHash (hlastJson _ rfl) hstatus
      have hagain : Replay.answerNewest (productionRule R row) (last :: earlier) (s.text R) = true ∧
          Replay.remember (productionRule R row) (last :: earlier) (s.text R) = last :: earlier :=
        Replay.answerNewest_of_head (congrArg some hlast)
      rw [hdone, hagain.1, hagain.2]
      exact ⟨rfl, hholds, fun _ => rfl⟩
    · have hother : R.sha256 last ≠ r.bodyHash := fun hsame =>
        hlast (hsha last List.mem_cons_self (by rw [hsame, hincoming.hash, hincoming.text]))
      have hnotLast : (last :: earlier).head? ≠ some (s.text R) :=
        fun h => hlast (Option.some.inj h)
      rw [(Replay.answerNewest_of_ne hnotLast).1, (Replay.answerNewest_of_ne hnotLast).2]
      obtain ⟨hanswer, hnext⟩ := hincoming.next hholds hstatus hother
      exact ⟨hanswer, hnext, fun h => absurd (Option.some.inj h) hlast⟩

end Production

/-! ## The reference store -/

section Reference

variable {R} {agentId operationId : String} {accepted : List Text}

/-- What the reference store stores after it accepted some texts: all of them. -/
structure Remembers (R : Runtime) (agentId operationId : String) (accepted : List Text)
    (store : ControllerStore.Store) : Prop where
  command : ∃ command, Table.get? store.commands operationId = some command ∧
    command.agentId = agentId ∧ command.resultState = accepted.head?.bind (reported R)
  submissions : ∀ digest, (∃ s ∈ store.resultSubmissions, s.operationId = operationId ∧
    s.bodyHash = digest) ↔ digest ∈ accepted.map R.sha256

/-- A body `_result` accepts is JSON of a bounded size. -/
theorem canonical_of_result {db : Database} {identity : OperationIdentity} {value : Json}
    {now : DateTime} {r : IngestedResult} {request : Request}
    (h : Ingestion.result R (repository R) identity value now { views := [], current := db } =
      .ok r request) :
    (validateJson R false false value).isOk = true ∧
      (decide (utf8Length (R.dumps value) ≤ 262144)) = true := by
  obtain ⟨⟨raw, status, error⟩, request₁, hquery, h₁⟩ := bind_apply_eq_ok.mp h
  obtain ⟨hheader, rfl⟩ := query_eq_ok.mp hquery
  obtain ⟨_, request₂, -, h₂⟩ := bind_apply_eq_ok.mp h₁
  obtain ⟨_, request₃, hquery', -⟩ := bind_apply_eq_ok.mp h₂
  obtain ⟨hcanonical, -⟩ := query_eq_ok.mp hquery'
  rw [← resultHeader_eq_ok hheader] at hcanonical
  simp only [Ingestion.canonical, Transaction.bind_eq_ok, ensure_eq_ok, exists_const] at hcanonical
  exact ⟨hcanonical.2.1, hcanonical.2.2.1⟩

/-- The fields of a body are those a result may have. -/
theorem lookup_state_of_header {value : Json} {raw : List (String × Json)}
    {status : OperationState} {error : Option String}
    (h : Ingestion.resultHeader value = .ok (raw, status, error)) : raw.lookup "state" = none := by
  have hvalue := resultHeader_eq_ok h
  obtain ⟨raw', hobj, h₁⟩ := Transaction.bind_eq_ok.mp h
  obtain ⟨_, hfields, -⟩ := Transaction.bind_eq_ok.mp h₁
  have hraw : raw' = raw := by
    rw [hvalue] at hobj
    cases hobj
    rfl
  subst hraw
  rw [ensure_eq_ok, Bool.and_eq_true, List.all_eq_true] at hfields
  rw [List.lookup_eq_none_iff]
  intro f hf
  have hallowed := hfields.1 f.1 (List.mem_map_of_mem hf)
  refine bne_iff_ne.mpr fun hstate => ?_
  rw [← hstate] at hallowed
  revert hallowed
  decide

/-- The reference store's own checks on a body `_result` accepts are those on its keys. -/
theorem checkResult_of_wellFormed {db : Database} {s : Submission} {identity : OperationIdentity}
    {r : IngestedResult} {request : Request} (hdecodes : Decodes R s)
    (h : Ingestion.result R (repository R) identity (.obj s.fields) s.receivedAt
      { views := [], current := db } = .ok r request) :
    (clean R (s.text R) = true → ControllerStore.checkResult R s.fields = .ok (s.text R, r.status)) ∧
      (clean R (s.text R) = false → (ControllerStore.checkResult R s.fields).isOk = false) := by
  obtain ⟨hjson, hsize⟩ := canonical_of_result h
  obtain ⟨⟨-, -, raw, errorCode, hheader⟩, -, -⟩ :=
    result_eq_ok (P := fun _ => True) ⟨trivial, fun _ _ => trivial⟩ h
  obtain ⟨text, htext, hof, hreportable⟩ := resultHeader_status hheader
  have hraw : raw = s.fields := (Json.obj.inj (resultHeader_eq_ok hheader)).symm
  -- the reference store checks the value it read, which has the same keys in another order
  have hclean : clean R (s.text R) = (validateJson R true false (.obj s.fields)).isOk := by
    rw [clean, hdecodes.loads, Option.getD_some, validateJson_sorted]
  -- both stores read the same status
  have hstate : ControllerStore.resultState s.fields = .ok r.status := by
    have hlookup := lookup_state_of_header hheader
    rw [hraw] at hlookup htext
    rw [ControllerStore.resultState, hlookup, Option.getD_none, htext]
    dsimp only
    rw [hof, Option.filter_some, if_pos hreportable]
  obtain ⟨_, hvalid⟩ := Transaction.exists_eq_ok_of_isOk hjson
  have hcanonical : canonicalJson R (.obj s.fields) = .ok (s.text R) := by
    rw [canonicalJson, hvalid]
    rfl
  rw [hclean]
  unfold ControllerStore.checkResult
  cases validateJson R true false (.obj s.fields) with
  | error e => exact ⟨(by intro h; cases h), fun _ => rfl⟩
  | ok _ =>
    refine ⟨fun _ => ?_, (by intro h; cases h)⟩
    rw [hcanonical]
    show (do
      ensure (decide (utf8Length (s.text R) ≤ 262144)) (.controllerRequest "result_too_large")
      let state ← ControllerStore.resultState s.fields
      return (s.text R, state) : Except Exc (Text × OperationState)) = _
    rw [show decide (utf8Length (s.text R) ≤ 262144) = true from hsize, hstate]
    rfl

/-- A recorded result is remembered with the others. -/
theorem remembers_record {store : ControllerStore.Store}
    (hremembers : Remembers R agentId operationId accepted store) {command : ControllerStore.Command}
    (hcommand : Table.get? store.commands operationId = some command)
    (hagent : command.agentId = agentId) {text : Text} {status : OperationState}
    (hreported : reported R text = some status) (now : String) :
    Remembers R agentId operationId (text :: accepted)
      (({ store with resultSubmissions := store.resultSubmissions ++ [{
          operationId, bodyHash := R.sha256 text, resultJson := text, resultState := status
          receivedAt := now }] } : ControllerStore.Store).setCommand operationId
        (ControllerStore.recordResult status now)) where
  command := by
    refine ⟨ControllerStore.recordResult status now command, ?_, hagent, hreported.symm⟩
    show Table.get? (Table.setValue operationId (ControllerStore.recordResult status now)
      store.commands) operationId = _
    rw [Table.get?_setValue_self (f := ControllerStore.recordResult status now) fun _ => rfl, hcommand,
      Option.map_some]
  submissions := fun digest => by
    rw [List.map_cons, List.mem_cons, ← hremembers.submissions digest]
    constructor
    · rintro ⟨sub, hsub, hid, hhash⟩
      rcases List.mem_append.mp hsub with hsub | hsub
      · exact .inr ⟨sub, hsub, hid, hhash⟩
      · rw [List.mem_singleton] at hsub
        rw [hsub] at hhash
        exact .inl hhash.symm
    · rintro (rfl | ⟨sub, hsub, hid, hhash⟩)
      · exact ⟨_, List.mem_append_right _ (List.mem_singleton.mpr rfl), rfl, rfl⟩
      · exact ⟨sub, List.mem_append_left _ hsub, hid, hhash⟩

/-- A key is refused before the store is read. -/
theorem submitReference_unclean {store : ControllerStore.Store} {s : Submission}
    (h : (ControllerStore.checkResult R s.fields).isOk = false) :
    (submitReference R agentId operationId store s).1.isOk = false ∧
      (submitReference R agentId operationId store s).2 = store := by
  rw [submitReference, Transaction.outcome, Transaction.committed, ControllerStore.ingestResult,
    Transaction.bind_apply, Transaction.query_apply]
  cases hcheck : ControllerStore.checkResult R s.fields with
  | ok checked =>
    rw [hcheck] at h
    cases h
  | error e => exact ⟨rfl, rfl⟩

/-- The search for the digest finds the texts accepted before. -/
theorem submitted_iff {store : ControllerStore.Store}
    (hremembers : Remembers R agentId operationId accepted store) {text : Text}
    (hsha : ∀ other ∈ accepted, R.sha256 other = R.sha256 text → other = text) :
    (store.resultSubmissions.any fun sub =>
      sub.operationId == operationId && sub.bodyHash == R.sha256 text) =
        decide (text ∈ accepted) := by
  rw [Bool.eq_iff_iff, List.any_eq_true, decide_eq_true_eq]
  simp only [Bool.and_eq_true, beq_iff_eq]
  rw [hremembers.submissions, List.mem_map]
  exact ⟨fun ⟨other, hother, heq⟩ => hsha other hother heq ▸ hother, fun h => ⟨_, h, rfl⟩⟩

/-- The rule, in terms of the state the command has. -/
theorem reference_follows {text : Text} {status : OperationState} {state : Option OperationState}
    (hstatuses : ∀ text ∈ accepted, (reported R text).isSome = true)
    (hreported : reported R text = some status) (hstate : state = accepted.head?.bind (reported R)) :
    (accepted.head?.map ((referenceRule R).follows · text)).getD true =
      !((state.map OperationState.terminal).getD false ||
        decide (state = some .running ∧ status = .queued)) := by
  rw [hstate]
  cases accepted with
  | nil => rfl
  | cons last earlier =>
    obtain ⟨before, hbefore⟩ := Option.isSome_iff_exists.mp (hstatuses last List.mem_cons_self)
    simp only [List.head?_cons, Option.map_some, Option.getD_some, Option.bind_some,
      referenceRule, hbefore, hreported]
    congr 2
    rw [Bool.eq_iff_iff]
    simp

/-- The branches of `ingest_result` on a body that passes the checks. -/
theorem ingestResult_checked {store : ControllerStore.Store} {s : Submission}
    {status : OperationState} {command : ControllerStore.Command} {seen : Bool}
    (hcheck : ControllerStore.checkResult R s.fields = .ok (s.text R, status))
    (hcommand : Table.get? store.commands operationId = some command)
    (hagent : command.agentId = agentId)
    (hseen : (store.resultSubmissions.any fun sub =>
      sub.operationId == operationId && sub.bodyHash == R.sha256 (s.text R)) = seen) :
    ControllerStore.ingestResult R agentId operationId s.fields s.receivedAt store =
      (if seen = true then return false
      else if (command.resultState.map OperationState.terminal).getD false = true then
        throw (.controllerRequest "terminal_result_conflict")
      else if command.resultState = some .running ∧ status = .queued then
        throw (.controllerRequest "result_regression")
      else do
        modify fun store => { store with
          resultSubmissions := store.resultSubmissions ++ [{
            operationId, bodyHash := R.sha256 (s.text R), resultJson := s.text R
            resultState := status, receivedAt := ControllerStore.dbTime s.receivedAt }] }
        modify fun store => store.setCommand operationId
          (ControllerStore.recordResult status (ControllerStore.dbTime s.receivedAt))
        return true : ControllerStore.StoreM Bool) store := by
  have hchecked : Transaction.query (fun _ => ControllerStore.checkResult R s.fields) store =
      .ok (s.text R, status) store := Transaction.query_ok hcheck
  rw [ControllerStore.ingestResult, Transaction.bind_apply, hchecked]
  dsimp only
  rw [Transaction.bind_apply, Transaction.get_apply]
  dsimp only
  rw [hcommand]
  dsimp only
  rw [if_neg (not_not.mpr hagent), hseen]

/-- The reference store's answer to a submission is the rule's, and it stores what it accepts. -/
theorem submitReference_step {start : Database} {store : ControllerStore.Store}
    (hremembers : Remembers R agentId operationId accepted store) {s : Submission}
    (hwf : WellFormed R start agentId operationId s) (hdecodes : Decodes R s)
    (hstatuses : ∀ text ∈ accepted, (reported R text).isSome = true)
    (hsha : ∀ text ∈ accepted, R.sha256 text = R.sha256 (s.text R) → text = s.text R) :
    (submitReference R agentId operationId store s).1.isOk =
        Replay.answerSeen (referenceRule R) accepted (s.text R) ∧
      (s.text R ∈ accepted → (submitReference R agentId operationId store s).2 = store) ∧
      (s.text R ∉ accepted → Remembers R agentId operationId
        (if (referenceRule R).admits accepted (s.text R) = true then s.text R :: accepted
          else accepted) (submitReference R agentId operationId store s).2) := by
  obtain ⟨identity, r, request, hidentity, hresult⟩ := hwf.accepted
  obtain ⟨hcheck, hrefuse⟩ := checkResult_of_wellFormed hdecodes hresult
  obtain ⟨⟨-, -, raw, errorCode, hheader⟩, -, -⟩ :=
    result_eq_ok (P := fun _ => True) ⟨trivial, fun _ _ => trivial⟩ hresult
  have hreported : reported R (s.text R) = some r.status := reported_text hdecodes hheader
  obtain ⟨command, hcommand, hagent, hstate⟩ := hremembers.command
  cases hclean : clean R (s.text R) with
  | false =>
    have hrefused : (submitReference R agentId operationId store s).1.isOk = false ∧
        (submitReference R agentId operationId store s).2 = store :=
      submitReference_unclean (hrefuse hclean)
    rw [hrefused.1, hrefused.2]
    have hvalid : (referenceRule R).valid (s.text R) = false := hclean
    refine ⟨?_, fun _ => rfl, fun _ => ?_⟩
    · rw [Replay.answerSeen, hvalid, Bool.false_and]
    · rw [Replay.Rule.admits, hvalid, Bool.false_and]
      exact hremembers
  | true =>
    have hvalid : (referenceRule R).valid (s.text R) = true := hclean
    have hfollows := reference_follows hstatuses hreported hstate
    have hbody := ingestResult_checked (hcheck hclean) hcommand hagent (submitted_iff hremembers hsha)
    have hserved : submitReference R agentId operationId store s = (Transaction.outcome
        (ControllerStore.ingestResult R agentId operationId s.fields s.receivedAt) store,
        Transaction.committed
          (ControllerStore.ingestResult R agentId operationId s.fields s.receivedAt) store) := rfl
    rw [hserved, Transaction.outcome, Transaction.committed, hbody]
    -- the branches of the method, in its order
    by_cases hmem : s.text R ∈ accepted
    · rw [if_pos (decide_eq_true hmem), Replay.answerSeen_of_mem hmem, hvalid]
      exact ⟨rfl, fun _ => rfl, fun hnot => absurd hmem hnot⟩
    · rw [if_neg (by simpa using hmem), Replay.answerSeen_of_notMem hmem, Replay.Rule.admits,
        hfollows, hvalid, Bool.true_and]
      refine and_left_comm.mp ⟨fun h => absurd h hmem, ?_⟩
      by_cases hterminal : (command.resultState.map OperationState.terminal).getD false = true
      · rw [if_pos hterminal, hterminal]
        exact ⟨rfl, fun _ => hremembers⟩
      · rw [if_neg hterminal, Bool.eq_false_iff.mpr hterminal]
        by_cases hregression : command.resultState = some .running ∧ r.status = .queued
        · rw [if_pos hregression, decide_eq_true hregression]
          exact ⟨rfl, fun _ => hremembers⟩
        · rw [if_neg hregression, decide_eq_false hregression]
          exact ⟨rfl, fun _ => remembers_record hremembers hcommand hagent hreported _⟩

end Reference

/-! ## Agreement -/

section Agreement

variable {R} {row : IngestionRow}

/-- A status a result may report. -/
def Reports (R : Runtime) (text : Text) : Prop :=
  ∃ status, reported R text = some status ∧ Ingestion.reportable status = true

/-- How far a status is. -/
def progress (R : Runtime) (text : Text) : ℕ :=
  match reported R text with
  | some .queued => 0
  | some .running => 1
  | _ => 2

theorem follows_eq_true {older newer : Text} :
    (productionRule R row).follows older newer = true ↔ ∃ status status',
      reported R older = some status ∧ reported R newer = some status' ∧
      (status = .queued ∧ (status' = .running ∨ status'.terminal = true) ∨
        status = .running ∧ status'.terminal = true) := by
  unfold productionRule
  dsimp only
  split
  · rename_i status status' hstatus hstatus'
    have hmonotonic : Ingestion.monotonic status.text status' = true ↔
        (status = .queued ∧ (status' = .running ∨ status'.terminal = true) ∨
          status = .running ∧ status'.terminal = true) := by
      have hqueued : (status.text == "queued") = decide (status = .queued) := by
        cases status <;> decide
      have hrunning : (status.text == "running") = decide (status = .running) := by
        cases status <;> decide
      simp [Ingestion.monotonic, hqueued, hrunning]
    rw [hmonotonic]
    constructor
    · exact fun h => ⟨status, status', hstatus, hstatus', h⟩
    · rintro ⟨_, _, h, h', hmoves⟩
      rw [hstatus] at h
      rw [hstatus'] at h'
      cases h
      cases h'
      exact hmoves
  · rename_i hnone
    refine ⟨(fun h => by cases h), fun ⟨status, status', hstatus, hstatus', _⟩ => ?_⟩
    exact absurd hstatus' (hnone status status' hstatus)

theorem progress_lt_of_follows {older newer : Text}
    (h : (productionRule R row).follows older newer = true) :
    progress R older < progress R newer := by
  obtain ⟨status, status', hstatus, hstatus', hmoves⟩ := follows_eq_true.mp h
  unfold progress
  rw [hstatus, hstatus']
  rcases hmoves with ⟨rfl, rfl | hterminal⟩ | ⟨rfl, hterminal⟩
  · decide
  · revert hterminal
    cases status' <;> decide
  · revert hterminal
    cases status' <;> decide

theorem follows_trans {a b c : Text} (h : (productionRule R row).follows a b = true)
    (h' : (productionRule R row).follows b c = true) :
    (productionRule R row).follows a c = true := by
  obtain ⟨status, status', hstatus, hstatus', hmoves⟩ := follows_eq_true.mp h
  obtain ⟨status₁, status'', hstatus₁, hstatus'', hmoves'⟩ := follows_eq_true.mp h'
  rw [hstatus'] at hstatus₁
  cases hstatus₁
  refine follows_eq_true.mpr ⟨status, status'', hstatus, hstatus'', ?_⟩
  rcases hmoves' with ⟨rfl, -⟩ | ⟨rfl, hterminal⟩
  · simp [OperationState.terminal] at hmoves
  · rcases hmoves with ⟨hqueued, -⟩ | ⟨-, hterminal'⟩
    · exact .inl ⟨hqueued, .inr hterminal⟩
    · cases hterminal'

/-- A text whose newest predecessor reports a status: it moves on, repeats it, or both rules
refuse it. -/
theorem admits_cons {last text : Text} {earlier : List Text} {status status' : OperationState}
    (hstatus : reported R last = some status) (hstatus' : reported R text = some status')
    (hreportable : Ingestion.reportable status = true)
    (hreportable' : Ingestion.reportable status' = true) :
    (productionRule R row).admits (last :: earlier) text = (referenceRule R).admits (last :: earlier) text ↔
      (MovesOn R (last :: earlier) text → evidenced R row text = clean R text) ∧
      (RepeatsStatus R (last :: earlier) text → clean R text = false) := by
  -- what each store asks of a text that is new to it
  have hproduction : (productionRule R row).admits (last :: earlier) text =
      (evidenced R row text && Ingestion.monotonic status.text status') := by
    simp only [Replay.Rule.admits, List.head?_cons, Option.map_some, Option.getD_some,
      productionRule, hstatus, hstatus']
  have hreference : (referenceRule R).admits (last :: earlier) text =
      (clean R text && !(status.terminal || (status == .running && status' == .queued))) := by
    simp only [Replay.Rule.admits, List.head?_cons, Option.map_some, Option.getD_some,
      referenceRule, hstatus, hstatus']
    rfl
  have hmoves : MovesOn R (last :: earlier) text ↔
      (status = .queued ∧ status' ≠ .queued ∨ status = .running ∧ status'.terminal = true) := by
    simp [MovesOn, hstatus, hstatus']
  have hrepeats : RepeatsStatus R (last :: earlier) text ↔
      (status = status' ∧ status.terminal = false) := by
    constructor
    · rintro ⟨_, hlast, same, hsame, hsame', hopen⟩
      cases hlast
      rw [hstatus] at hsame
      rw [hstatus'] at hsame'
      cases hsame
      cases hsame'
      exact ⟨rfl, hopen⟩
    · rintro ⟨rfl, hopen⟩
      exact ⟨last, rfl, status, hstatus, hstatus', hopen⟩
  rw [hproduction, hreference, hmoves, hrepeats]
  -- a table over the two statuses is left
  revert hreportable hreportable'
  generalize evidenced R row text = evidence
  generalize clean R text = keys
  cases status <;> cases status' <;> cases evidence <;> cases keys <;> decide

theorem harmless_iff {accepted : List Text} (haccepted : ∀ text ∈ accepted, Reports R text)
    {text : Text} (htext : Reports R text) :
    Replay.Harmless (productionRule R row) (referenceRule R) accepted text ↔
      Compatible R row accepted text := by
  unfold Replay.Harmless Compatible
  refine or_congr_right (and_congr_right fun _ => ?_)
  cases accepted with
  | nil =>
    have hmoves : MovesOn R [] text := by simp [MovesOn]
    have hrepeats : ¬ RepeatsStatus R [] text := by simp [RepeatsStatus]
    simp [Replay.Rule.admits, productionRule, referenceRule, hmoves, hrepeats]
  | cons last earlier =>
    obtain ⟨status, hstatus, hreportable⟩ := haccepted last List.mem_cons_self
    obtain ⟨status', hstatus', hreportable'⟩ := htext
    exact admits_cons hstatus hstatus' hreportable hreportable'

theorem mem_remember {rule : Replay.Rule Text} {accepted : List Text} {text t : Text}
    (h : t ∈ Replay.remember rule accepted text) : t = text ∨ t ∈ accepted := by
  unfold Replay.remember at h
  split at h
  · exact List.mem_cons.mp h
  · exact .inr h

theorem allHarmless_iff {accepted : List Text} (haccepted : ∀ text ∈ accepted, Reports R text)
    {texts : List Text} (htexts : ∀ text ∈ texts, Reports R text) :
    Replay.AllHarmless (productionRule R row) (referenceRule R) accepted texts ↔
      AllCompatible R row accepted texts := by
  induction texts generalizing accepted with
  | nil => exact Iff.rfl
  | cons text rest ih =>
    rw [List.forall_mem_cons] at htexts
    refine and_congr (harmless_iff haccepted htexts.1) (ih ?_ htexts.2)
    intro t ht
    rcases mem_remember ht with rfl | ht
    · exact htexts.1
    · exact haccepted t ht

/-- What both stores hold while they agree. -/
structure Together (R : Runtime) (start : Database) (agentId operationId : String)
    (row : IngestionRow) (accepted : List Text) (db : Database) (store : ControllerStore.Store) :
    Prop where
  production : Holds R start operationId row accepted db
  reference : Remembers R agentId operationId accepted store
  advancing : Replay.Advancing (productionRule R row) (referenceRule R) accepted
  reports : ∀ text ∈ accepted, Reports R text

theorem reports_of_wellFormed {start : Database} {agentId operationId : String} {s : Submission}
    (hwf : WellFormed R start agentId operationId s) (hdecodes : Decodes R s) :
    Reports R (s.text R) := by
  obtain ⟨identity, r, request, -, hresult⟩ := hwf.accepted
  obtain ⟨⟨-, -, raw, errorCode, hheader⟩, -, -⟩ :=
    result_eq_ok (P := fun _ => True) ⟨trivial, fun _ _ => trivial⟩ hresult
  obtain ⟨_, -, -, hreportable⟩ := resultHeader_status hheader
  exact ⟨r.status, reported_text hdecodes hheader, hreportable⟩

/-- The texts accepted after an agreed submission, as both stores hold them. -/
theorem together_step {start : Database} {agentId operationId : String} {accepted : List Text}
    {db : Database} {store : ControllerStore.Store} (hagent : row.agentId = agentId)
    (h : Together R start agentId operationId row accepted db store) {s : Submission}
    (hwf : WellFormed R start agentId operationId s) (hdecodes : Decodes R s)
    (hsha : ∀ text ∈ accepted, R.sha256 text = R.sha256 (s.text R) → text = s.text R)
    (hdigest : R.sha256 (s.text R) ≠ "") :
    (((submitProduction R db s).1.isOk = (submitReference R agentId operationId store s).1.isOk ∧
      (s.text R ∈ accepted → (submitProduction R db s).1.isOk = true ∧
        (submitProduction R db s).2 = db ∧
        (submitReference R agentId operationId store s).2 = store)) ↔
      Replay.Harmless (productionRule R row) (referenceRule R) accepted (s.text R)) ∧
    (submitProduction R db s).1.isOk =
      Replay.answerNewest (productionRule R row) accepted (s.text R) ∧
    (Replay.Harmless (productionRule R row) (referenceRule R) accepted (s.text R) →
      Together R start agentId operationId row
        (Replay.remember (productionRule R row) accepted (s.text R)) (submitProduction R db s).2
        (submitReference R agentId operationId store s).2) := by
  have hstatuses : ∀ text ∈ accepted, (reported R text).isSome = true := fun text htext => by
    obtain ⟨status, hstatus, -⟩ := h.reports text htext
    rw [hstatus]
    rfl
  obtain ⟨hanswer, hholds, hunchanged⟩ := submitProduction_step h.production (hagent ▸ hwf)
    hdecodes hstatuses hsha hdigest
  obtain ⟨hanswer', hunchanged', hremembers⟩ := submitReference_step h.reference hwf hdecodes
    hstatuses hsha
  have hrank : ∀ {older newer}, (productionRule R row).follows older newer = true →
      progress R older < progress R newer := progress_lt_of_follows
  refine ⟨?_, hanswer, fun hharmless => ?_⟩
  · rw [← Replay.step_iff hrank h.advancing, hanswer, hanswer']
    refine and_congr_right fun _ => forall_congr' fun hmem => ?_
    refine ⟨fun hrepeated => hrepeated.1, fun haccepted => ⟨haccepted, ?_, hunchanged' hmem⟩⟩
    -- an accepted text that is accepted again is the newest one
    refine hunchanged (by_contra fun hnot => ?_)
    rw [(Replay.answerNewest_of_ne hnot).1,
      Replay.not_admits_of_mem hrank h.advancing hmem] at haccepted
    cases haccepted
  · refine ⟨hholds, ?_, Replay.advancing_remember h.advancing follows_trans hharmless, ?_⟩
    · by_cases hmem : s.text R ∈ accepted
      · have hlast := hharmless.resolve_right fun hnew => hnew.1 hmem
        rw [(Replay.answerNewest_of_head hlast).2, hunchanged' hmem]
        exact h.reference
      · have hnot : accepted.head? ≠ some (s.text R) := fun hlast =>
          hmem (List.mem_of_mem_head? hlast)
        have hsame := (hharmless.resolve_left hnot).2
        rw [(Replay.answerNewest_of_ne hnot).2, hsame]
        exact hremembers hmem
    · intro t ht
      rcases mem_remember ht with rfl | ht
      · exact reports_of_wellFormed hwf hdecodes
      · exact h.reports t ht

/-- Both stores agree on a sequence exactly when their rules do. -/
theorem agree_iff_of_together {start : Database} {agentId operationId : String}
    (hagent : row.agentId = agentId) {submissions : List Submission}
    (hwf : ∀ s ∈ submissions, WellFormed R start agentId operationId s)
    (hdecodes : ∀ s ∈ submissions, Decodes R s) {texts : Set Text}
    (hsha : Set.InjOn R.sha256 texts) (htexts : ∀ s ∈ submissions, s.text R ∈ texts)
    (hdigest : ∀ s ∈ submissions, R.sha256 (s.text R) ≠ "") {accepted noted : List Text}
    (haccepted : ∀ text ∈ accepted, text ∈ texts) (hnoted : ∀ text, text ∈ noted ↔ text ∈ accepted)
    {db : Database} {store : ControllerStore.Store}
    (h : Together R start agentId operationId row accepted db store) :
    Agree R agentId operationId db store noted submissions ↔
      Replay.AllHarmless (productionRule R row) (referenceRule R) accepted
        (submissions.map (·.text R)) := by
  induction submissions generalizing accepted noted db store with
  | nil => exact Iff.rfl
  | cons s rest ih =>
    rw [List.forall_mem_cons] at hwf hdecodes hdigest htexts
    obtain ⟨hstep, hanswer, htogether⟩ := together_step hagent h hwf.1 hdecodes.1
      (fun text htext heq => hsha (haccepted text htext) htexts.1 heq) hdigest.1
    unfold Agree
    rw [List.map_cons, Replay.AllHarmless, hnoted (s.text R), ← and_assoc, hstep]
    refine and_congr_right fun hharmless => ?_
    refine ih hwf.2 hdecodes.2 htexts.2 hdigest.2 (fun text htext => ?_) (fun text => ?_)
      (htogether hharmless)
    · rcases mem_remember htext with rfl | htext
      · exact htexts.1
      · exact haccepted text htext
    · rw [hanswer]
      by_cases hlast : accepted.head? = some (s.text R)
      · have hmem : s.text R ∈ accepted := List.mem_of_mem_head? hlast
        rw [(Replay.answerNewest_of_head hlast).1, (Replay.answerNewest_of_head hlast).2, if_pos rfl,
          List.mem_cons, hnoted]
        exact ⟨fun hmem' => hmem'.elim (fun heq => heq ▸ hmem) id, .inr⟩
      · rw [(Replay.answerNewest_of_ne hlast).1, (Replay.answerNewest_of_ne hlast).2]
        split
        · rw [List.mem_cons, List.mem_cons, hnoted]
        · exact hnoted text

end Agreement

/-- Both stores accept the same submissions for an operation, and repetitions change nothing,
exactly when every text is compatible with those accepted before it. -/
theorem stores_agree_iff {R : Runtime} {db : Database} {store : ControllerStore.Store}
    {agentId operationId : String} {row : IngestionRow}
    (hdispatched : Dispatched db store agentId operationId row) {submissions : List Submission}
    (hwf : ∀ s ∈ submissions, WellFormed R db agentId operationId s)
    (hdecodes : ∀ s ∈ submissions, Decodes R s)
    (hsha : Set.InjOn R.sha256 {text | ∃ s ∈ submissions, s.text R = text})
    (hdigest : ∀ s ∈ submissions, R.sha256 (s.text R) ≠ "") :
    Agree R agentId operationId db store [] submissions ↔
      AllCompatible R row [] (submissions.map (·.text R)) := by
  have htogether : Together R db agentId operationId row [] db store := {
    production := {
      identities := fun _ => rfl
      stored := ⟨row, hdispatched.production, rfl, rfl, rfl, rfl, hdispatched.noResult,
        fun _ h => by cases h⟩ }
    reference := {
      command := hdispatched.reference
      submissions := fun digest => by
        simpa using fun s hs hid => absurd hid (hdispatched.noSubmission s hs) }
    advancing := ⟨(fun _ h => by cases h), List.Pairwise.nil⟩
    reports := fun _ h => by cases h }
  rw [agree_iff_of_together hdispatched.owner hwf hdecodes hsha (fun s hs => ⟨s, hs, rfl⟩) hdigest
    (fun _ h => by cases h) (fun _ => Iff.rfl) htogether]
  refine allHarmless_iff (fun _ h => by cases h) fun text htext => ?_
  obtain ⟨s, hs, rfl⟩ := List.mem_map.mp htext
  exact reports_of_wellFormed (hwf s hs) (hdecodes s hs)

/-! ### A queued acknowledgement that arrives again -/

namespace Sample

open Dispatcher.Sample

/-- A report of the sample operation. -/
def report (status : String) : List (String × Json) :=
  [("status", .str status), ("operation_id", .str operationId), ("bench_id", .str "bench-1"),
    ("site_domain", .str "one.example"), ("operation", .str "site.migrate"), ("attempt", .int 0),
    ("max_attempts", .int 1), ("error_code", .null)]

def submission (status : String) : Submission where
  request := .obj [("protocol_version", .str "1.0"), ("agent_id", .str "agent-1"),
    ("audience", .str "frappe-controller"), ("operation_id", .str operationId),
    ("result", .obj (report status))]
  fields := report status
  receivedAt := now

def textOf (status : String) : Text := (Dispatcher.Sample.runtime [] []).dumps (.obj (report status))

/-- A runtime that knows the three reports. -/
def runtime : Runtime :=
  Dispatcher.Sample.runtime
    [(textOf "queued", "c4bea108915a243bc1e40ee8295ddc3702fcd741cb7bc519f211dcf7c366c859"),
      (textOf "running", "018bbef20eaab208dd8fd341b64649d0d48944380cc1db596962f26d97bf2d3b"),
      (textOf "failed", "b0d12bf31b345a7753946d6d1d4f38e2b79063ab01e551b900e809fbf77a0157")]
    [(textOf "queued", (Json.obj (report "queued")).sorted),
      (textOf "running", (Json.obj (report "running")).sorted),
      (textOf "failed", (Json.obj (report "failed")).sorted)]

/-- The sample operation, leased to its agent. -/
def leased : Database :=
  { database with operations := [{ Dispatcher.Sample.operation with
      state := .leased, commandHash := some emptyDigest, leaseExpiresAt := some now }] }

def row : IngestionRow where
  op := { Dispatcher.Sample.operation with
    state := .leased, commandHash := some emptyDigest, leaseExpiresAt := some now }
  agentId := "agent-1"
  benchId := "bench-1"
  siteDomain := some "one.example"
  requiredAppsJson := none

/-- The same operation in the reference store. -/
def store : ControllerStore.Store where
  agents := [{ agentId := "agent-1", enabled := true }]
  commands := [{
    operationId := operationId, idempotencyKey := "site.migrate:" ++ operationId
    agentId := "agent-1", immutableJson := ['{', '}'], immutableHash := emptyDigest
    envelopeJson := ['{', '}'], status := .leased, leaseExpiresAt := some "", resultState := none
    createdAt := "", updatedAt := "" }]
  resultSubmissions := []

theorem dispatched : Dispatched leased store "agent-1" operationId row where
  production := rfl
  owner := rfl
  noResult := rfl
  reference := ⟨_, rfl, rfl, rfl⟩
  noSubmission := fun _ h => by cases h

/-- Whether a request of the sample operation passes `_common` and `_result`. -/
def accepts (status : String) : Bool :=
  ((Ingestion.common runtime (submission status).request "result").toOption.map Prod.snd ==
      some ("agent-1", operationId)) &&
    match operation runtime leased operationId with
    | some identity =>
      match Ingestion.result runtime (repository runtime) identity (.obj (report status)) now
        { views := [], current := leased } with
      | .ok _ _ => true
      | .error _ _ => false
    | none => false

theorem wellFormed_of_accepts {status : String} (h : accepts status = true) :
    WellFormed runtime leased "agent-1" operationId (submission status) := by
  rw [accepts, Bool.and_eq_true, beq_iff_eq] at h
  obtain ⟨hcommon, hresult⟩ := h
  refine ⟨?_, ?_⟩
  · cases hparsed : Ingestion.common runtime (submission status).request "result" with
    | error e =>
      rw [hparsed] at hcommon
      cases hcommon
    | ok parsed =>
      obtain ⟨raw, agent, id⟩ := parsed
      rw [hparsed] at hcommon
      cases hcommon
      have hraw := Json.obj.inj (common_eq_ok hparsed)
      exact ⟨raw, rfl, hraw ▸ rfl⟩
  · cases hidentity : operation runtime leased operationId with
    | none =>
      rw [hidentity] at hresult
      cases hresult
    | some identity =>
      rw [hidentity] at hresult
      dsimp only at hresult
      split at hresult
      · rename_i r request hok
        exact ⟨identity, r, request, rfl, hok⟩
      · cases hresult

theorem wellFormed : ∀ status ∈ ["queued", "running", "failed"],
    WellFormed runtime leased "agent-1" operationId (submission status) := by
  have haccepts : ∀ status ∈ ["queued", "running", "failed"], accepts status = true := by
    decide +kernel
  intro status hstatus
  exact wellFormed_of_accepts (haccepts status hstatus)

/-- The agent acknowledges the operation, reports that it runs and that it failed, and sends each
report twice. -/
def submissions : List Submission :=
  ["queued", "queued", "running", "running", "failed", "failed"].map submission

theorem forall_submissions {P : Submission → Prop} (hqueued : P (submission "queued"))
    (hrunning : P (submission "running")) (hfailed : P (submission "failed")) :
    ∀ s ∈ submissions, P s := by
  intro s hs
  obtain ⟨status, hstatus, rfl⟩ := List.mem_map.mp hs
  simp only [List.mem_cons, List.not_mem_nil, or_false] at hstatus
  rcases hstatus with rfl | rfl | rfl | rfl | rfl | rfl <;> assumption

/-- A report of another status that passes both checks is compatible. -/
theorem compatible_other {accepted : List Text} {text : Text} (hnew : text ∉ accepted)
    (hchecks : evidenced runtime row text = clean runtime text)
    (hstatus : (accepted.head?.bind (reported runtime)) ≠ reported runtime text) :
    Compatible runtime row accepted text := by
  refine .inr ⟨hnew, fun _ => hchecks, ?_⟩
  rintro ⟨last, hlast, status, hlast', htext, -⟩
  rw [Option.mem_def.mp hlast, Option.bind_some, hlast', htext] at hstatus
  exact absurd rfl hstatus

/-- Each report is remembered when it first arrives. -/
theorem remembered :
    Replay.remember (productionRule runtime row) [] (textOf "queued") = [textOf "queued"] ∧
    Replay.remember (productionRule runtime row) [textOf "queued"] (textOf "running") =
      [textOf "running", textOf "queued"] ∧
    Replay.remember (productionRule runtime row) [textOf "running", textOf "queued"]
      (textOf "failed") = [textOf "failed", textOf "running", textOf "queued"] := by
  decide +kernel

/-- The three reports pass the same checks in both stores, and differ in text and status. -/
theorem checked :
    (∀ status ∈ ["queued", "running", "failed"],
      evidenced runtime row (textOf status) = clean runtime (textOf status)) ∧
    textOf "running" ∉ [textOf "queued"] ∧ textOf "failed" ∉ [textOf "running", textOf "queued"] ∧
    reported runtime (textOf "queued") = some .queued ∧
    reported runtime (textOf "running") = some .running ∧
    reported runtime (textOf "failed") = some .failed := by
  decide +kernel

theorem allCompatible : AllCompatible runtime row [] (submissions.map (·.text runtime)) := by
  obtain ⟨hqueued, hrunning, hfailed⟩ := remembered
  obtain ⟨hchecks, hnewRunning, hnewFailed, hisQueued, hisRunning, hisFailed⟩ := checked
  let rule := productionRule runtime row
  have hagain : ∀ accepted text, Replay.remember rule (text :: accepted) text = text :: accepted :=
    fun _ _ => (Replay.answerNewest_of_head rfl).2
  show AllCompatible runtime row [] [textOf "queued", textOf "queued", textOf "running",
    textOf "running", textOf "failed", textOf "failed"]
  refine ⟨compatible_other List.not_mem_nil (hchecks "queued" (by decide)) ?_, ?_⟩
  · rw [hisQueued]
    decide
  rw [hqueued]
  refine ⟨.inl rfl, ?_⟩
  rw [hagain]
  refine ⟨compatible_other hnewRunning (hchecks "running" (by decide)) ?_, ?_⟩
  · rw [List.head?_cons, Option.bind_some, hisQueued, hisRunning]
    decide
  rw [hrunning]
  refine ⟨.inl rfl, ?_⟩
  rw [hagain]
  refine ⟨compatible_other hnewFailed (hchecks "failed" (by decide)) ?_, ?_⟩
  · rw [List.head?_cons, Option.bind_some, hisRunning, hisFailed]
    decide
  rw [hfailed]
  exact ⟨.inl rfl, trivial⟩

end Sample

/-- The sample operation is acknowledged, runs and fails, and each of the three reports arrives
twice: both stores take the repetitions for what they are. -/
theorem stores_agree_iff_sample :
    Agree Sample.runtime "agent-1" Dispatcher.Sample.operationId Sample.leased Sample.store []
      Sample.submissions := by
  have hdigests : (∀ s ∈ Sample.submissions, ∀ s' ∈ Sample.submissions,
      Sample.runtime.sha256 (s.text Sample.runtime) =
        Sample.runtime.sha256 (s'.text Sample.runtime) →
      s.text Sample.runtime = s'.text Sample.runtime) ∧
      ∀ s ∈ Sample.submissions, Sample.runtime.sha256 (s.text Sample.runtime) ≠ "" := by
    decide +kernel
  obtain ⟨hsame, hnonempty⟩ := hdigests
  refine (stores_agree_iff Sample.dispatched ?_ ?_ ?_ ?_).mpr Sample.allCompatible
  · exact Sample.forall_submissions (Sample.wellFormed "queued" (by decide))
      (Sample.wellFormed "running" (by decide)) (Sample.wellFormed "failed" (by decide))
  · exact Sample.forall_submissions ⟨by decide, rfl⟩ ⟨by decide, rfl⟩ ⟨by decide, rfl⟩
  · rintro _ ⟨s, hs, rfl⟩ _ ⟨s', hs', rfl⟩ hdigest
    exact hsame s hs s' hs' hdigest
  · exact hnonempty

/-- The acknowledgement arrives again after the agent reported that the operation runs. The
reference store has it, production refuses it. -/
theorem stores_disagree :
    Dispatched Sample.leased Sample.store "agent-1" Dispatcher.Sample.operationId Sample.row ∧
    (∀ s ∈ [Sample.submission "queued", Sample.submission "running", Sample.submission "queued"],
      WellFormed Sample.runtime Sample.leased "agent-1" Dispatcher.Sample.operationId s) ∧
    ¬ Agree Sample.runtime "agent-1" Dispatcher.Sample.operationId Sample.leased Sample.store []
      [Sample.submission "queued", Sample.submission "running", Sample.submission "queued"] := by
  refine ⟨Sample.dispatched, ?_, fun hagree => ?_⟩
  · have hqueued := Sample.wellFormed "queued" (by decide)
    have hrunning := Sample.wellFormed "running" (by decide)
    simp [hqueued, hrunning]
  · obtain ⟨-, -, -, -, hsame, -⟩ := hagree
    let production (db : Database) (status : String) :=
      submitProduction Sample.runtime db (Sample.submission status)
    let reference (store : ControllerStore.Store) (status : String) :=
      submitReference Sample.runtime "agent-1" Dispatcher.Sample.operationId store
        (Sample.submission status)
    have hproduction : (production (production (production Sample.leased "queued").2 "running").2
        "queued").1.isOk = false := by decide +kernel
    have hreference : (reference (reference (reference Sample.store "queued").2 "running").2
        "queued").1.isOk = true := by decide +kernel
    exact absurd (hproduction.symm.trans (hsame.trans hreference)) (by decide)

end ResultAgreement

end FrappeController
