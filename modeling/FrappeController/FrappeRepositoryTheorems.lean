import FrappeController.FrappeRepository

/-!
# What a request does, by what it answers

The reads of a request see whatever versions are visible to it; its locked section changes
the current version, once, and only if the request returns.
-/

namespace FrappeController
namespace FrappeRepository

open Transaction (bind_apply_eq_ok query_eq_ok)

variable {R : Runtime}

/-! ## Reads of a request -/

/-- Every version the request can still see satisfies `P`. -/
def Sees (P : Database → Prop) (request : Request) : Prop :=
  P request.current ∧ ∀ view ∈ request.views, P view

/-- A read returns what some visible version says, and leaves the current version alone. -/
theorem read_eq_ok {α : Type} {P : Database → Prop} {f : Database → Except Exc α}
    {request request' : Request} {a : α} (hsees : Sees P request)
    (h : read f request = .ok a request') :
    (∃ view, P view ∧ f view = .ok a) ∧ Sees P request' ∧ request'.current = request.current := by
  unfold read at h
  cases hviews : request.views with
  | nil =>
    rw [hviews] at h
    obtain ⟨hf, rfl⟩ := query_eq_ok.mp h
    exact ⟨⟨_, hsees.1, hf⟩, hsees, rfl⟩
  | cons view rest =>
    rw [hviews] at h
    obtain ⟨hf, rfl⟩ := query_eq_ok.mp h
    have hall : ∀ v ∈ view :: rest, P v := hviews ▸ hsees.2
    exact ⟨⟨view, hall view List.mem_cons_self, hf⟩,
      ⟨hsees.1, fun v hv => hall v (List.mem_cons_of_mem _ hv)⟩, rfl⟩

theorem locked_eq_ok {α : Type} {m : DbM α} {request request' : Request} {a : α} :
    locked m request = .ok a request' ↔
      ∃ db, m request.current = .ok a db ∧ request' = { request with current := db } := by
  unfold locked
  cases m request.current <;> simp [eq_comm]

/-- The operation a request names is read from some visible version, and is its agent's. -/
theorem owner_eq_ok {P : Database → Prop} {agent operationId : String}
    {request request' : Request} {identity : OperationIdentity} (hsees : Sees P request)
    (h : Ingestion.owner (repository R) agent operationId request = .ok identity request') :
    (∃ view, P view ∧ operation R view operationId = some identity) ∧ identity.agentId = agent ∧
      Sees P request' ∧ request'.current = request.current := by
  obtain ⟨found, request₁, hread, h⟩ := bind_apply_eq_ok.mp h
  obtain ⟨⟨view, hP, hview⟩, hsees₁, hcurrent⟩ :=
    read_eq_ok (f := fun db => .ok (operation R db operationId)) hsees hread
  cases hview
  cases hfound : operation R view operationId with
  | none =>
    rw [hfound] at h
    cases h
  | some found =>
    rw [hfound] at h
    dsimp only at h
    split at h
    · rename_i hagent
      cases h
      exact ⟨⟨view, hP, hfound⟩, hagent, hsees₁, hcurrent⟩
    · cases h

theorem operation_eq_some {db : Database} {operationId : String} {identity : OperationIdentity}
    (h : operation R db operationId = some identity) :
    ∃ row, operationRow? db operationId = some row ∧ identity.operationId = row.op.operationId ∧
      identity.agentId = row.agentId ∧ identity.lastEventSequence = row.op.lastEventSequence := by
  obtain ⟨row, hrow, rfl⟩ := Option.map_eq_some_iff.mp h
  exact ⟨row, hrow, rfl, rfl, rfl⟩

theorem operationRow?_eq_some {db : Database} {operationId : String} {row : IngestionRow}
    (h : operationRow? db operationId = some row) :
    row.op ∈ db.operations ∧ row.op.operationId = operationId := by
  simp only [operationRow?, Option.bind_eq_bind, Option.bind_eq_some_iff, pure,
    Option.some.injEq] at h
  obtain ⟨op, hop, _, -, _, -, rfl⟩ := h
  exact ⟨List.mem_of_find?_eq_some hop, by simpa using List.find?_some hop⟩

/-! ## Results -/

/-- A result is recorded with its own status, except for a creation without evidence. -/
theorem recordedState_eq_ok {row : IngestionRow} {r : IngestedResult} {state : OperationState}
    {errorCode : Option String} (h : recordedState R row r = .ok (state, errorCode)) :
    state = r.status ∨ (r.status = .succeeded ∧ state = .needsIntervention) := by
  unfold recordedState at h
  split at h
  · rename_i hrefused
    split at h
    · split at h
      · cases h
      · cases h
        exact .inr ⟨hrefused.1, rfl⟩
    · cases h
  · cases h
    exact .inl rfl

/-- A commit that returns either finds its own hash stored, or finds the expected one and
records the result. -/
theorem commitResult_eq_ok {db db' : Database} {agentId operationId : String}
    {expectedPreviousHash : Option String} {r : IngestedResult}
    (h : commitResult R agentId operationId expectedPreviousHash r db = .ok () db') :
    ∃ row, operationRow? db operationId = some row ∧ row.agentId = agentId ∧
      (db' = db ∨ (orNone row.op.resultHash = expectedPreviousHash ∧
        ∃ state errorCode, recordedState R row r = .ok (state, errorCode) ∧
          db' = record row.op r state errorCode db)) := by
  obtain ⟨start, db₁, hget, hbody⟩ := bind_apply_eq_ok.mp h
  cases hget
  cases hrow : operationRow? db operationId with
  | none =>
    rw [hrow] at hbody
    cases hbody
  | some row =>
    rw [hrow] at hbody
    dsimp only at hbody
    split at hbody
    · cases hbody
    · rename_i hagent
      refine ⟨row, rfl, not_not.mp hagent, ?_⟩
      split at hbody
      · split at hbody
        · cases hbody
          exact .inl rfl
        · cases hbody
      · rename_i hexpected
        obtain ⟨⟨state, errorCode⟩, db₂, hquery, hwrite⟩ := bind_apply_eq_ok.mp hbody
        obtain ⟨hrecorded, rfl⟩ := query_eq_ok.mp hquery
        cases hwrite
        exact .inr ⟨not_not.mp hexpected, state, errorCode, hrecorded, rfl⟩

/-- The fields of a request are the request's own. -/
theorem common_eq_ok {body : Json} {field agent operationId : String}
    {raw : List (String × Json)}
    (h : Ingestion.common R body field = .ok (raw, agent, operationId)) : body = .obj raw := by
  obtain ⟨raw', hobj, h₁⟩ := Transaction.bind_eq_ok.mp h
  have hbody : body = .obj raw' := by
    unfold Ingestion.obj at hobj
    split at hobj <;> cases hobj
    rfl
  simp only [Transaction.bind_eq_ok, pure, Except.pure, Except.ok.injEq, Prod.mk.injEq] at h₁
  obtain ⟨_, -, _, -, _, -, _, -, _, -, rfl, -, -⟩ := h₁
  exact hbody

/-- The header of a result is read from an object. -/
theorem resultHeader_eq_ok {value : Json} {raw : List (String × Json)} {status : OperationState}
    {error : Option String} (h : Ingestion.resultHeader value = .ok (raw, status, error)) :
    value = .obj raw := by
  unfold Ingestion.resultHeader at h
  obtain ⟨raw', hobj, h₁⟩ := Transaction.bind_eq_ok.mp h
  obtain ⟨-, -, h₂⟩ := Transaction.bind_eq_ok.mp h₁
  obtain ⟨text, -, h₃⟩ := Transaction.bind_eq_ok.mp h₂
  have hvalue : value = .obj raw' := by
    unfold Ingestion.obj at hobj
    split at hobj <;> cases hobj
    rfl
  split at h₃
  · cases h₃
  · split at h₃
    · cases h₃
      exact hvalue
    · obtain ⟨error', -, h₄⟩ := Transaction.bind_eq_ok.mp h₃
      obtain ⟨-, -, h₅⟩ := Transaction.bind_eq_ok.mp h₄
      cases h₅
      exact hvalue

theorem text_eq_ok {value : Json} {name s : String} {limit : ℕ}
    (h : Ingestion.text value name limit = .ok s) : value = .str s := by
  unfold Ingestion.text at h
  split at h
  · obtain ⟨_, -, hreturn⟩ := Transaction.bind_eq_ok.mp h
    cases hreturn
    rfl
  · cases h

/-- The status of a result is one of those it may report, by its text. -/
theorem resultHeader_status {value : Json} {raw : List (String × Json)} {status : OperationState}
    {error : Option String} (h : Ingestion.resultHeader value = .ok (raw, status, error)) :
    ∃ s, Json.get raw "status" = .str s ∧ OperationState.ofText? s = some status ∧
      Ingestion.reportable status = true := by
  obtain ⟨raw', -, h₁⟩ := Transaction.bind_eq_ok.mp h
  obtain ⟨_, -, h₂⟩ := Transaction.bind_eq_ok.mp h₁
  obtain ⟨s, htext, h₃⟩ := Transaction.bind_eq_ok.mp h₂
  cases hstate : (OperationState.ofText? s).filter Ingestion.reportable with
  | none =>
    rw [hstate] at h₃
    cases h₃
  | some state =>
    obtain ⟨hof, hreportable⟩ := Option.filter_eq_some_iff.mp hstate
    rw [hstate] at h₃
    dsimp only at h₃
    split at h₃
    · cases h₃
      exact ⟨s, text_eq_ok htext, hof, hreportable⟩
    · obtain ⟨_, -, h₄⟩ := Transaction.bind_eq_ok.mp h₃
      obtain ⟨_, -, h₅⟩ := Transaction.bind_eq_ok.mp h₄
      cases h₅
      exact ⟨s, text_eq_ok htext, hof, hreportable⟩

theorem canonical_eq_ok {value : Json} {name : String} {limit : ℕ} {encoded : Text}
    {digest : String} (h : Ingestion.canonical R value name limit = .ok (encoded, digest)) :
    encoded = R.dumps value ∧ digest = R.sha256 encoded := by
  simp only [Ingestion.canonical, Transaction.bind_eq_ok, pure, Except.pure, Except.ok.injEq,
    Prod.mk.injEq] at h
  obtain ⟨-, -, -, -, -, -, rfl, rfl⟩ := h
  exact ⟨rfl, rfl⟩

theorem resultIdentity_eq_ok {P : Database → Prop} {identity : OperationIdentity}
    {raw : List (String × Json)} {request request' : Request} (hsees : Sees P request)
    (h : Ingestion.resultIdentity R (repository R) identity raw request = .ok () request') :
    Sees P request' ∧ request'.current = request.current := by
  obtain ⟨nested, request₁, hquery, h₁⟩ := bind_apply_eq_ok.mp h
  obtain ⟨-, rfl⟩ := query_eq_ok.mp hquery
  split at h₁
  · obtain ⟨target, request₂, hquery', h₂⟩ := bind_apply_eq_ok.mp h₁
    obtain ⟨-, rfl⟩ := query_eq_ok.mp hquery'
    split at h₂
    · cases h₂
    · obtain ⟨targetOp, request₃, howner, h₃⟩ := bind_apply_eq_ok.mp h₂
      obtain ⟨-, -, hsees', hcurrent⟩ := owner_eq_ok hsees howner
      split at h₃ <;> cases h₃
      exact ⟨hsees', hcurrent⟩
  · split at h₁ <;> cases h₁
    exact ⟨hsees, rfl⟩

theorem resultShape_eq_ok {P : Database → Prop} {identity : OperationIdentity}
    {raw : List (String × Json)} {status : OperationState} {error : Option String}
    {request request' : Request} (hsees : Sees P request)
    (h : Ingestion.resultShape R (repository R) identity raw status error request =
      .ok () request') : Sees P request' ∧ request'.current = request.current := by
  simp only [Ingestion.resultShape] at h
  split at h
  · obtain ⟨-, rfl⟩ := query_eq_ok.mp h
    exact ⟨hsees, rfl⟩
  · split at h
    · obtain ⟨-, rfl⟩ := query_eq_ok.mp h
      exact ⟨hsees, rfl⟩
    · obtain ⟨_, request₁, hquery, h₁⟩ := bind_apply_eq_ok.mp h
      obtain ⟨-, rfl⟩ := query_eq_ok.mp hquery
      obtain ⟨_, request₂, hidentity, h₂⟩ := bind_apply_eq_ok.mp h₁
      obtain ⟨-, rfl⟩ := query_eq_ok.mp h₂
      exact resultIdentity_eq_ok hsees hidentity

/-- A parsed result carries the text, the hash and the status of the submitted object. -/
theorem result_eq_ok {P : Database → Prop} {identity : OperationIdentity} {value : Json}
    {now : DateTime} {request request' : Request} {r : IngestedResult} (hsees : Sees P request)
    (h : Ingestion.result R (repository R) identity value now request = .ok r request') :
    (r.resultJson = R.dumps value ∧ r.bodyHash = R.sha256 r.resultJson ∧
      ∃ fields errorCode, Ingestion.resultHeader value = .ok (fields, r.status, errorCode)) ∧
    Sees P request' ∧ request'.current = request.current := by
  obtain ⟨⟨raw, status, error⟩, request₁, hquery, h₁⟩ := bind_apply_eq_ok.mp h
  obtain ⟨hheader, rfl⟩ := query_eq_ok.mp hquery
  have hvalue := resultHeader_eq_ok hheader
  obtain ⟨_, request₂, hshape, h₂⟩ := bind_apply_eq_ok.mp h₁
  obtain ⟨⟨encoded, digest⟩, request₃, hquery', h₃⟩ := bind_apply_eq_ok.mp h₂
  obtain ⟨hcanonical, rfl⟩ := query_eq_ok.mp hquery'
  obtain ⟨hencoded, hdigest⟩ := canonical_eq_ok hcanonical
  cases h₃
  exact ⟨⟨hvalue ▸ hencoded, hdigest, raw, error, hheader⟩, resultShape_eq_ok hsees hshape⟩

/-- A result may be committed after what was stored: the same object is not, and nothing
follows a terminal result. -/
def Follows (existing : Option StoredResult) (r : IngestedResult) : Prop :=
  ∀ stored, existing = some stored → stored.bodyHash ≠ r.bodyHash ∧
    Ingestion.terminalText stored.status = false ∧
    Ingestion.monotonic stored.status r.status = true

/-- An accepted result was either stored before, or passes the checks against the result some
visible version stores and is then committed against that result's hash. -/
theorem ingestResult_eq_ok {P : Database → Prop} {body : Json} {receivedAt : DateTime}
    {request request' : Request} {r : IngestedResult} (hsees : Sees P request)
    (h : Ingestion.ingestResult R (repository R) body receivedAt request = .ok r request') :
    ∃ raw agent operationId, Ingestion.common R body "result" = .ok (raw, agent, operationId) ∧
      r.resultJson = R.dumps (Json.get raw "result") ∧ r.bodyHash = R.sha256 r.resultJson ∧
      (∃ fields errorCode, Ingestion.resultHeader (Json.get raw "result") =
        .ok (fields, r.status, errorCode)) ∧
      (request'.current = request.current ∨ ∃ view existing, P view ∧
        result R view operationId = .ok existing ∧ Follows existing r ∧
        commitResult R agent operationId (existing.map (·.bodyHash)) r request.current =
          .ok () request'.current) := by
  obtain ⟨⟨raw, agent, operationId⟩, request₁, hquery, h₁⟩ := bind_apply_eq_ok.mp h
  obtain ⟨hcommon, rfl⟩ := query_eq_ok.mp hquery
  obtain ⟨identity, request₂, howner, h₂⟩ := bind_apply_eq_ok.mp h₁
  obtain ⟨-, -, hsees₂, hcurrent₂⟩ := owner_eq_ok hsees howner
  obtain ⟨submitted, request₃, hresult, h₃⟩ := bind_apply_eq_ok.mp h₂
  obtain ⟨⟨htext, hhash, hheader⟩, hsees₃, hcurrent₃⟩ := result_eq_ok hsees₂ hresult
  obtain ⟨existing, request₄, hread, h₄⟩ := bind_apply_eq_ok.mp h₃
  obtain ⟨⟨view, hP, hview⟩, -, hcurrent₄⟩ :=
    read_eq_ok (f := fun db => result R db operationId) hsees₃ hread
  have hcurrent : request₄.current = request.current :=
    hcurrent₄.trans (hcurrent₃.trans hcurrent₂)
  -- the result that was read decides, in the snapshot the request saw
  cases existing with
  | none =>
    obtain ⟨_, request₅, hlocked, h₅⟩ := bind_apply_eq_ok.mp h₄
    obtain ⟨db, hcommit, rfl⟩ := locked_eq_ok.mp hlocked
    cases h₅
    exact ⟨raw, agent, operationId, hcommon, htext, hhash, hheader,
      .inr ⟨view, none, hP, hview, (fun _ h => by cases h), hcurrent ▸ hcommit⟩⟩
  | some stored =>
    dsimp only at h₄
    split at h₄
    · cases h₄
      -- a repeated body is answered without a write
      exact ⟨raw, agent, operationId, hcommon, htext, hhash, hheader, .inl hcurrent⟩
    · rename_i hdiffers
      split at h₄
      · cases h₄
      · rename_i hterminal
        split at h₄
        · cases h₄
        · rename_i hmonotonic
          obtain ⟨_, request₅, hlocked, h₅⟩ := bind_apply_eq_ok.mp h₄
          obtain ⟨db, hcommit, rfl⟩ := locked_eq_ok.mp hlocked
          cases h₅
          refine ⟨raw, agent, operationId, hcommon, htext, hhash, hheader,
            .inr ⟨view, some stored, hP, hview, fun st h => ?_, hcurrent ▸ hcommit⟩⟩
          cases h
          exact ⟨hdiffers, by simpa using hterminal, by simpa using hmonotonic⟩

end FrappeRepository

end FrappeController
