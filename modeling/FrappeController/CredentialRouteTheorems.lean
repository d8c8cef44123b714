import FrappeController.CredentialRoutes
import FrappeController.Library.Run
import FrappeController.Library.Transaction

/-!
# One handoff of each credential

What each endpoint can do (`storeCredentialRoute_eq_ok`, `consumeOperationCredential_eq_ok`),
what a row keeps over every step (`Since`), and what an acknowledged delivery leaves behind
(`Delivered`). The owner compares what it resends with what Frappe made of its first delivery, so
a resent delivery depends on whether its credential is `Storable`.
-/

namespace FrappeController
namespace CredentialRoutes

variable {sanitizeHtml : String → String} {operations operations' : List Handoff}

/-- The row with a credential received. -/
def received (sanitizeHtml : String → String) (credential : String) (now : DateTime)
    (operation : Handoff) : Handoff :=
  { operation with
    administratorCredential :=
      savePassword sanitizeHtml credential operation.administratorCredential
    credentialReceivedAt := some now }

/-- The row with its credential consumed. -/
def consumed (now : DateTime) (operation : Handoff) : Handoff :=
  { operation with administratorCredential := none, credentialConsumedAt := some now }

/-- Frappe keeps a credential as it is: it is no placeholder, and the filter leaves it unchanged. -/
def Storable (sanitizeHtml : String → String) (credential : String) : Prop :=
  isDummyPassword credential = false ∧ sanitizeContent sanitizeHtml credential = credential

theorem isCredential_nonempty {credential : String} (h : isCredential credential = true) :
    credential.isEmpty = false := by
  have hlength : 1 ≤ credential.length := by
    simp only [isCredential, Bool.and_eq_true, decide_eq_true_eq] at h
    exact h.1.1
  by_contra hempty
  have hnil : credential = "" := by simpa using hempty
  subst hnil
  exact absurd hlength (by decide)

/-- Every save of a storable credential keeps it. -/
theorem Storable.savePassword_eq {credential : String} (h : Storable sanitizeHtml credential)
    (hcredential : isCredential credential = true) (stored : Option String) :
    savePassword sanitizeHtml credential stored = some credential := by
  have hnonempty := isCredential_nonempty hcredential
  simp only [savePassword, h.2, hnonempty, h.1, Bool.false_eq_true, if_false]

/-- Only a storable credential is kept by the first save: a placeholder finds nothing stored. -/
theorem storable_of_savePassword {credential : String}
    (h : savePassword sanitizeHtml credential none = some credential) :
    Storable sanitizeHtml credential := by
  simp only [savePassword] at h
  split at h
  · cases h
  · split at h
    · cases h
    · rename_i hdummy
      have hsame : sanitizeContent sanitizeHtml credential = credential := Option.some.inj h
      rw [hsame] at hdummy
      exact ⟨by simpa using hdummy, hsame⟩

/-- A text without angle brackets that is not only asterisks is storable, whatever the filter. -/
theorem storable_of_plain {credential : String} (hdummy : isDummyPassword credential = false)
    (hopen : '<' ∉ credential.toList) (hclose : '>' ∉ credential.toList) :
    Storable sanitizeHtml credential := by
  refine ⟨hdummy, ?_⟩
  have hplain : (credential.toList.contains '<' || credential.toList.contains '>') = false := by
    simp [hopen, hclose]
  rw [sanitizeContent, hplain]
  rfl

/-- The agent owns the site creation of the delivery. -/
structure Owns (operation : Handoff) (delivered : Delivery) : Prop where
  name : operation.name = delivered.operationId
  agent : operation.serverAgent = delivered.agentId
  creation : FrappeRepository.isCreation operation.operationType = true

/-- A delivery is acknowledged for the owner only: it was received before, or it is received now. -/
theorem storeCredentialRoute_eq_ok {request : StoreRequest} {delivered : Delivery}
    (hdelivery : (request.value >>= delivery) = .ok delivered)
    (h : storeCredentialRoute sanitizeHtml request operations = .ok operations') :
    request.authenticatePeer delivered.agentId = .ok () ∧
    ∃ operation, Table.get? operations delivered.operationId = some operation ∧
      Owns operation delivered ∧
      ((operation.credentialReceivedAt.isSome ∧ operations' = operations ∧
          (operation.credentialConsumedAt = none →
            operation.administratorCredential = some delivered.credential)) ∨
        (operation.credentialReceivedAt = none ∧ operation.credentialConsumedAt = none ∧
          operations' = Table.setValue delivered.operationId
            (received sanitizeHtml delivered.credential request.now) operations)) := by
  obtain ⟨value, hvalue, hfields⟩ := Transaction.bind_eq_ok.mp hdelivery
  obtain ⟨value', hvalue', h⟩ := Transaction.bind_eq_ok.mp h
  rw [hvalue] at hvalue'
  cases hvalue'
  obtain ⟨delivered', hfields', h⟩ := Transaction.bind_eq_ok.mp h
  rw [hfields] at hfields'
  cases hfields'
  obtain ⟨⟨⟩, hpeer, h⟩ := Transaction.bind_eq_ok.mp h
  refine ⟨hpeer, ?_⟩
  -- an unknown operation is refused, like one of another agent or kind
  cases hget : Table.get? operations delivered.operationId with
  | none =>
    rw [hget] at h
    cases h
  | some operation =>
    simp only [hget] at h
    split at h
    · cases h
    rename_i howns
    obtain ⟨hagent, hcreation⟩ := not_or.mp howns
    have hcreation : FrappeRepository.isCreation operation.operationType = true := by
      simpa using hcreation
    refine ⟨operation, rfl, ⟨Table.get?_name hget, not_not.mp hagent, hcreation⟩, ?_⟩
    split at h
    -- a consumed credential is acknowledged again if it was received, and not compared
    · rename_i hconsumed
      -- a received one is compared with the delivery
      split at h
      · rename_i hreceived
        cases h
        refine .inl ⟨hreceived, rfl, fun hnone => ?_⟩
        rw [hnone] at hconsumed
        cases hconsumed
      · cases h
    · rename_i hconsumed
      split at h
      · rename_i hreceived
        split at h
        · cases h
        · rename_i hsame
          cases h
          exact .inl ⟨hreceived, rfl, fun _ => not_not.mp hsame⟩
      · rename_i hreceived
        split at h
        · cases h
          exact .inr ⟨by simpa using hreceived, by simpa using hconsumed, rfl⟩
        · cases h

/-- A delivery the owner resends is acknowledged, and nothing changes. -/
theorem storeCredentialRoute_again {request : StoreRequest} {delivered : Delivery}
    {operation : Handoff} (hdelivery : (request.value >>= delivery) = .ok delivered)
    (hpeer : request.authenticatePeer delivered.agentId = .ok ())
    (hget : Table.get? operations delivered.operationId = some operation)
    (howns : Owns operation delivered) (hreceived : operation.credentialReceivedAt.isSome)
    (hsame : operation.credentialConsumedAt = none →
      operation.administratorCredential = some delivered.credential) :
    storeCredentialRoute sanitizeHtml request operations = .ok operations := by
  obtain ⟨value, hvalue, hfields⟩ := Transaction.bind_eq_ok.mp hdelivery
  refine Transaction.bind_eq_ok.mpr ⟨value, hvalue, ?_⟩
  refine Transaction.bind_eq_ok.mpr ⟨delivered, hfields, ?_⟩
  refine Transaction.bind_eq_ok.mpr ⟨(), hpeer, ?_⟩
  have howner : ¬ (operation.serverAgent ≠ delivered.agentId
      ∨ FrappeRepository.isCreation operation.operationType = false) := by
    simp [howns.agent, howns.creation]
  simp only [hget]
  rw [if_neg howner, if_pos hreceived]
  by_cases hconsumed : operation.credentialConsumedAt.isSome = true
  · rw [if_pos hconsumed]
  · rw [if_neg hconsumed, if_pos hreceived, if_neg]
    exact not_not.mpr (hsame (by simpa using hconsumed))

/-- A credential is returned from a row that keeps it and was not consumed, which it then is. -/
theorem consumeOperationCredential_eq_ok {request : ConsumeRequest} {value : Consumed}
    (h : consumeOperationCredential request operations = .ok (value, operations')) :
    ∃ operation, operation ∈ operations ∧ value.operationId = operation.operationId ∧
      mayConsume request operation = true ∧
      operation.administratorCredential = some value.administratorCredential ∧
      operation.credentialConsumedAt = none ∧
      operations' = Table.setValue operation.name (consumed request.now) operations := by
  unfold consumeOperationCredential at h
  split at h
  · split at h
    · cases h
    split at h
    · cases h
    · rename_i operation hget
      split at h
      · cases h
      rename_i hallowed
      split at h
      · cases h
      · rename_i credential hcredential
        split at h
        · cases h
        · rename_i hunconsumed
          obtain ⟨⟨⟩, hsave, hresult⟩ := Transaction.bind_eq_ok.mp h
          cases hresult
          have hname := Table.get?_name hget
          refine ⟨operation, Table.get?_mem hget, rfl, by simpa using hallowed, hcredential, ?_, ?_⟩
          · simpa using (not_or.mp hunconsumed).2
          · show Table.setValue _ (consumed request.now) operations = _
            rw [← hname]
            rfl
  · cases h

/-! ## What a row keeps -/

/-- Rows that hold a credential have received it, and none holds one after its consumption. -/
structure Inv (operations : List Handoff) : Prop where
  unique : Table.Unique operations
  ids : ∀ operation ∈ operations, operation.operationId = operation.name
  holds : ∀ operation ∈ operations, operation.administratorCredential.isSome →
    operation.credentialReceivedAt.isSome
  cleared : ∀ operation ∈ operations, operation.credentialConsumedAt.isSome →
    operation.administratorCredential = none

/-- What may become of a row: nothing after its consumption, and a stored credential is kept or
consumed. -/
structure Since (operation later : Handoff) : Prop where
  name : later.name = operation.name
  operationType : later.operationType = operation.operationType
  serverAgent : later.serverAgent = operation.serverAgent
  received : operation.credentialReceivedAt.isSome → later.credentialReceivedAt.isSome
  consumed : operation.credentialConsumedAt.isSome → later = operation
  credential : ∀ credential, operation.administratorCredential = some credential →
    later.administratorCredential = some credential ∨
      (later.credentialConsumedAt.isSome ∧ later.administratorCredential = none)

theorem Since.refl (operation : Handoff) : Since operation operation :=
  ⟨rfl, rfl, rfl, id, fun _ => rfl, fun _ h => .inl h⟩

theorem Since.trans {operation later last : Handoff} (h : Since operation later)
    (h' : Since later last) : Since operation last where
  name := h'.name.trans h.name
  operationType := h'.operationType.trans h.operationType
  serverAgent := h'.serverAgent.trans h.serverAgent
  received := fun hreceived => h'.received (h.received hreceived)
  consumed := by
    intro hconsumed
    have hsame := h.consumed hconsumed
    subst hsame
    exact h'.consumed hconsumed
  credential := by
    intro credential hcredential
    rcases h.credential credential hcredential with hkept | ⟨hconsumed, hnone⟩
    · exact h'.credential credential hkept
    · rw [h'.consumed hconsumed]
      exact .inr ⟨hconsumed, hnone⟩

/-- Every row has its later self in the table. -/
def Kept (operations later : List Handoff) : Prop :=
  ∀ operation ∈ operations, ∃ last ∈ later, Since operation last

theorem Kept.refl (operations : List Handoff) : Kept operations operations :=
  fun operation h => ⟨operation, h, .refl operation⟩

theorem Kept.trans {later last : List Handoff} (h : Kept operations later) (h' : Kept later last) :
    Kept operations last := by
  intro operation hoperation
  obtain ⟨next, hnext, hsince⟩ := h operation hoperation
  obtain ⟨final, hfinal, hsince'⟩ := h' next hnext
  exact ⟨final, hfinal, hsince.trans hsince'⟩

/-- A write to one row that only does what may become of it. -/
theorem kept_setValue (hinv : Inv operations) {name : String} {f : Handoff → Handoff}
    {operation : Handoff} (hget : Table.get? operations name = some operation)
    (hsince : Since operation (f operation)) : Kept operations (Table.setValue name f operations) := by
  intro row hrow
  by_cases hname : row.name = name
  · have hsame : row = operation := by
      refine Table.eq_of_mem hinv.unique hrow (Table.get?_mem hget) ?_
      exact hname.trans (Table.get?_name hget).symm
    subst hsame
    exact ⟨f row, (Table.mem_update ..).mpr ⟨row, hrow, if_pos hname⟩, hsince⟩
  · exact ⟨row, (Table.mem_update ..).mpr ⟨row, hrow, if_neg hname⟩, .refl row⟩

/-- A write to one row that leaves it as the invariant asks. -/
theorem inv_setValue (hinv : Inv operations) {name : String} {f : Handoff → Handoff}
    (hname : ∀ row, (f row).name = row.name) (hid : ∀ row, (f row).operationId = row.operationId)
    (hholds : ∀ row, (f row).administratorCredential.isSome → (f row).credentialReceivedAt.isSome)
    (hcleared : ∀ row ∈ operations, row.name = name → (f row).credentialConsumedAt.isSome →
      (f row).administratorCredential = none) : Inv (Table.setValue name f operations) where
  unique := (Table.unique_update hname).mpr hinv.unique
  ids := by
    intro row hrow
    obtain ⟨old, hold, rfl⟩ := (Table.mem_update ..).mp hrow
    split
    · rw [hname, hid]
      exact hinv.ids old hold
    · exact hinv.ids old hold
  holds := by
    intro row hrow
    obtain ⟨old, hold, rfl⟩ := (Table.mem_update ..).mp hrow
    split
    · exact hholds old
    · exact hinv.holds old hold
  cleared := by
    intro row hrow
    obtain ⟨old, hold, rfl⟩ := (Table.mem_update ..).mp hrow
    split
    · rename_i hwritten
      exact hcleared old hold hwritten
    · exact hinv.cleared old hold

/-- A new row of a free name that holds nothing yet. -/
theorem inv_append (hinv : Inv operations) {operation : Handoff}
    (hid : operation.operationId = operation.name)
    (hnew : Table.get? operations operation.name = none)
    (hcredential : operation.administratorCredential = none) : Inv (operations ++ [operation]) where
  unique := by
    have hnames := Table.get?_eq_none.mp hnew
    show ((operations ++ [operation]).map Named.name).Nodup
    rw [List.map_append, List.nodup_append]
    refine ⟨hinv.unique, by simp, ?_⟩
    intro name hname name' hname'
    obtain ⟨row, hrow, rfl⟩ := List.mem_map.mp hname
    rw [List.mem_singleton.mp hname']
    exact hnames row hrow
  ids := by
    intro row hrow
    rcases List.mem_append.mp hrow with hrow | hrow
    · exact hinv.ids row hrow
    · rw [List.mem_singleton.mp hrow]
      exact hid
  holds := by
    intro row hrow hsome
    rcases List.mem_append.mp hrow with hrow | hrow
    · exact hinv.holds row hrow hsome
    · rw [List.mem_singleton.mp hrow, hcredential] at hsome
      cases hsome
  cleared := by
    intro row hrow hsome
    rcases List.mem_append.mp hrow with hrow | hrow
    · exact hinv.cleared row hrow hsome
    · rw [List.mem_singleton.mp hrow]
      exact hcredential

/-- A first delivery, to a row that has received nothing. -/
theorem received_kept (hinv : Inv operations) {name credential : String} {now : DateTime}
    {operation : Handoff} (hget : Table.get? operations name = some operation)
    (hreceived : operation.credentialReceivedAt = none)
    (hconsumed : operation.credentialConsumedAt = none) :
    Inv (Table.setValue name (received sanitizeHtml credential now) operations)
      ∧ Kept operations (Table.setValue name (received sanitizeHtml credential now) operations) := by
  have hunconsumed : ∀ row ∈ operations, row.name = name → row.credentialConsumedAt = none := by
    intro row hrow hname
    have hsame := Table.eq_of_mem hinv.unique hrow (Table.get?_mem hget)
      (hname.trans (Table.get?_name hget).symm)
    rw [hsame, hconsumed]
  -- nothing is stored before it is received
  have hnothing : operation.administratorCredential = none := by
    by_contra hsome
    have hholds := hinv.holds operation (Table.get?_mem hget)
      (Option.isSome_iff_ne_none.mpr hsome)
    rw [hreceived] at hholds
    cases hholds
  constructor
  · refine inv_setValue hinv (fun _ => rfl) (fun _ => rfl) (fun _ _ => rfl) ?_
    intro row hrow hname hsome
    have hsome : row.credentialConsumedAt.isSome := hsome
    rw [hunconsumed row hrow hname] at hsome
    cases hsome
  · apply kept_setValue hinv hget
    exact {
      name := rfl
      operationType := rfl
      serverAgent := rfl
      received := fun _ => rfl
      consumed := fun hsome => by rw [hconsumed] at hsome; cases hsome
      credential := fun _ hcredential => by rw [hnothing] at hcredential; cases hcredential }

/-- A consumption, of a row that was not consumed. -/
theorem consumed_kept (hinv : Inv operations) {now : DateTime} {operation : Handoff}
    (hmem : operation ∈ operations) (hconsumed : operation.credentialConsumedAt = none) :
    Inv (Table.setValue operation.name (consumed now) operations)
      ∧ Kept operations (Table.setValue operation.name (consumed now) operations) := by
  constructor
  · exact inv_setValue hinv (fun _ => rfl) (fun _ => rfl) (fun _ h => by cases h)
      (fun _ _ _ _ => rfl)
  · apply kept_setValue hinv (Table.get?_of_mem hinv.unique hmem)
    exact {
      name := rfl
      operationType := rfl
      serverAgent := rfl
      received := id
      consumed := fun hsome => by rw [hconsumed] at hsome; cases hsome
      credential := fun _ _ => .inr ⟨rfl, rfl⟩ }

/-- Every step keeps the invariant and the rows. -/
theorem step_kept {l : Label} (hinv : Inv operations)
    (hstep : Step sanitizeHtml operations l operations') :
    Inv operations' ∧ Kept operations operations' := by
  cases hstep with
  | stored hdelivery h =>
    obtain ⟨-, operation, hget, -, ⟨-, hsame, -⟩ | ⟨hreceived, hconsumed, rfl⟩⟩ :=
      storeCredentialRoute_eq_ok hdelivery h
    -- a resent delivery writes nothing
    · rw [hsame]
      exact ⟨hinv, .refl operations⟩
    · exact received_kept hinv hget hreceived hconsumed
  | refused h => exact ⟨hinv, .refl operations⟩
  | consumed h =>
    obtain ⟨operation, hmem, -, -, -, hconsumed, rfl⟩ := consumeOperationCredential_eq_ok h
    exact consumed_kept hinv hmem hconsumed
  | denied h => exact ⟨hinv, .refl operations⟩
  | authored hid hnew hcredential hreceived hconsumed =>
    refine ⟨inv_append hinv hid hnew hcredential, fun row hrow => ?_⟩
    exact ⟨row, List.mem_append_left _ hrow, .refl row⟩

/-! ## Runs -/

theorem inv_nil : Inv [] :=
  ⟨List.nodup_nil, fun _ h => (by cases h), fun _ h => (by cases h), fun _ h => (by cases h)⟩

variable {labels : List Label}

theorem step_inv (s : List Handoff) (l : Label) (t : List Handoff) (hinv : Inv s)
    (hstep : Step sanitizeHtml s l t) : Inv t :=
  (step_kept hinv hstep).1

theorem inv_of_run (hrun : Run (Step sanitizeHtml) [] labels operations) : Inv operations :=
  hrun.invariant step_inv inv_nil

theorem kept_of_run (hinv : Inv operations)
    (hrun : Run (Step sanitizeHtml) operations labels operations') :
    Kept operations operations' :=
  hrun.relation Kept.refl (fun _ _ _ h h' => h.trans h') step_inv
    (fun _ _ _ hinv hstep => (step_kept hinv hstep).2) hinv

/-- The row of an acknowledged delivery: it holds that credential until it is consumed. -/
def Delivered (operations : List Handoff) (delivered : Delivery) : Prop :=
  ∃ operation ∈ operations, Owns operation delivered ∧ operation.credentialReceivedAt.isSome ∧
    (operation.credentialConsumedAt = none →
      operation.administratorCredential = some delivered.credential)

theorem Delivered.kept {delivered : Delivery} (h : Delivered operations delivered)
    (hkept : Kept operations operations') : Delivered operations' delivered := by
  obtain ⟨operation, hoperation, howns, hreceived, hsame⟩ := h
  obtain ⟨later, hlater, hsince⟩ := hkept operation hoperation
  refine ⟨later, hlater, ?_, hsince.received hreceived, fun hnone => ?_⟩
  · exact {
      name := hsince.name.trans howns.name
      agent := hsince.serverAgent.trans howns.agent
      creation := by rw [hsince.operationType]; exact howns.creation }
  · have hunconsumed : operation.credentialConsumedAt = none := by
      by_contra hsome
      have hlast := hsince.consumed (Option.isSome_iff_ne_none.mpr hsome)
      rw [hlast] at hnone
      exact hsome hnone
    rcases hsince.credential _ (hsame hunconsumed) with hcredential | ⟨hconsumed, -⟩
    · exact hcredential
    · rw [hnone] at hconsumed
      cases hconsumed

theorem delivery_eq_ok {value : List (String × Json)} {delivered : Delivery}
    (h : delivery value = .ok delivered) : isCredential delivered.credential = true := by
  unfold delivery at h
  split at h
  · split at h
    · rename_i hvalid
      cases h
      exact (Bool.and_eq_true_iff.mp hvalid).2
    · cases h
  · cases h

theorem isCredential_of_delivery {request : StoreRequest} {delivered : Delivery}
    (h : (request.value >>= delivery) = .ok delivered) :
    isCredential delivered.credential = true := by
  obtain ⟨value, -, hfields⟩ := Transaction.bind_eq_ok.mp h
  exact delivery_eq_ok hfields

/-- An acknowledged delivery leaves its credential in the row. -/
theorem delivered_of_stored {request : StoreRequest} {delivered : Delivery}
    (hdelivery : (request.value >>= delivery) = .ok delivered)
    (hstorable : Storable sanitizeHtml delivered.credential)
    (h : storeCredentialRoute sanitizeHtml request operations = .ok operations') :
    Delivered operations' delivered := by
  obtain ⟨-, operation, hget, howns, hcases⟩ := storeCredentialRoute_eq_ok hdelivery h
  have hmem := Table.get?_mem hget
  rcases hcases with ⟨hreceived, rfl, hsame⟩ | ⟨-, -, rfl⟩
  · exact ⟨operation, hmem, howns, hreceived, hsame⟩
  · let row := received sanitizeHtml delivered.credential request.now operation
    refine ⟨row, ?_, ⟨howns.name, howns.agent, howns.creation⟩, rfl, fun _ => ?_⟩
    · exact (Table.mem_update ..).mpr ⟨operation, hmem, if_pos (Table.get?_name hget)⟩
    · exact hstorable.savePassword_eq (isCredential_of_delivery hdelivery) _

/-- Whatever followed an acknowledged delivery, its row still answers for it. -/
theorem delivered_of_run (hrun : Run (Step sanitizeHtml) [] labels operations)
    {delivered : Delivery} (hmem : Label.stored delivered ∈ labels)
    (hstorable : Storable sanitizeHtml delivered.credential) : Delivered operations delivered := by
  induction hrun with
  | nil => cases hmem
  | snoc hpre hlast ih =>
    have hinv := inv_of_run hpre
    rcases List.mem_append.mp hmem with hmem | hmem
    · exact (ih hmem).kept (step_kept hinv hlast).2
    · cases List.mem_singleton.mp hmem
      cases hlast with
      | stored hdelivery h => exact delivered_of_stored hdelivery hstorable h

/-- The first delivery of a credential, resent at once: it is acknowledged exactly when the
credential was stored as it is. -/
theorem resent_iff (hinv : Inv operations) {request : StoreRequest} {delivered : Delivery}
    {later : List Handoff} (hdelivery : (request.value >>= delivery) = .ok delivered)
    (h : storeCredentialRoute sanitizeHtml request operations = .ok later)
    (hfirst : later ≠ operations) :
    storeCredentialRoute sanitizeHtml request later = .ok later ↔
      Storable sanitizeHtml delivered.credential := by
  obtain ⟨hpeer, operation, hget, howns, hcases⟩ := storeCredentialRoute_eq_ok hdelivery h
  rcases hcases with ⟨-, hsame, -⟩ | ⟨hreceived, hconsumed, hlater⟩
  · exact absurd hsame hfirst
  -- the row the first delivery left, over a row that held nothing
  have hnothing : operation.administratorCredential = none := by
    by_contra hsome
    have hholds := hinv.holds operation (Table.get?_mem hget)
      (Option.isSome_iff_ne_none.mpr hsome)
    rw [hreceived] at hholds
    cases hholds
  let row := received sanitizeHtml delivered.credential request.now operation
  have hrow : Table.get? later delivered.operationId = some row := by
    have hname : ∀ row, Named.name (received sanitizeHtml delivered.credential request.now row)
        = Named.name row := fun _ => rfl
    rw [hlater, Table.get?_setValue_self hname, hget]
    rfl
  have hkept : row.administratorCredential
      = savePassword sanitizeHtml delivered.credential none := by
    show savePassword sanitizeHtml delivered.credential operation.administratorCredential = _
    rw [hnothing]
  constructor
  · intro hagain
    obtain ⟨-, again, hgetAgain, -, hcases⟩ := storeCredentialRoute_eq_ok hdelivery hagain
    have hsame : again = row := Option.some.inj (hgetAgain.symm.trans hrow)
    subst hsame
    rcases hcases with ⟨-, -, hanswer⟩ | ⟨hnone, -⟩
    · apply storable_of_savePassword
      exact hkept.symm.trans (hanswer hconsumed)
    · cases hnone
  · intro hstorable
    have howned : Owns row delivered := ⟨howns.name, howns.agent, howns.creation⟩
    apply storeCredentialRoute_again hdelivery hpeer hrow howned rfl
    intro _
    exact hkept.trans (hstorable.savePassword_eq (isCredential_of_delivery hdelivery) none)

/-- The returned credential of a label. -/
def consumed? : Label → Option Consumed
  | .consumed value => some value
  | _ => none

/-- The operation of every returned credential is consumed, and no two are of one operation. -/
theorem consumed_of_run (hrun : Run (Step sanitizeHtml) [] labels operations) :
    (∀ value ∈ labels.filterMap consumed?, ∃ operation ∈ operations,
      operation.operationId = value.operationId ∧ operation.credentialConsumedAt.isSome) ∧
    ((labels.filterMap consumed?).map Consumed.operationId).Nodup := by
  induction hrun with
  | nil => exact ⟨fun _ h => (by cases h), List.nodup_nil⟩
  | @snoc operations operations' labels l hpre hlast ih =>
    have hinv := inv_of_run hpre
    obtain ⟨hinv', hkept⟩ := step_kept hinv hlast
    obtain ⟨hreturned, honce⟩ := ih
    have hstill : ∀ value ∈ labels.filterMap consumed?, ∃ operation ∈ operations',
        operation.operationId = value.operationId ∧ operation.credentialConsumedAt.isSome := by
      intro value hvalue
      obtain ⟨operation, hoperation, hid, hconsumed⟩ := hreturned value hvalue
      obtain ⟨later, hlater, hsince⟩ := hkept operation hoperation
      rw [hsince.consumed hconsumed] at hlater
      exact ⟨operation, hlater, hid, hconsumed⟩
    rw [List.filterMap_append]
    cases hl : consumed? l with
    | none =>
      have hnone : [l].filterMap consumed? = [] := by simp [hl]
      rw [hnone, List.append_nil]
      exact ⟨hstill, honce⟩
    | some value =>
      have hsome : [l].filterMap consumed? = [value] := by simp [hl]
      rw [hsome]
      cases hlast with
      | stored hdelivery h => cases hl
      | refused h => cases hl
      | denied h => cases hl
      | authored hid hnew hcredential hreceived hconsumed => cases hl
      | consumed h =>
        cases hl
        obtain ⟨operation, hmem, hid, -, -, hunconsumed, rfl⟩ :=
          consumeOperationCredential_eq_ok h
        constructor
        · intro value' hvalue'
          rcases List.mem_append.mp hvalue' with hvalue' | hvalue'
          · exact hstill value' hvalue'
          · rw [List.mem_singleton.mp hvalue']
            refine ⟨_, (Table.mem_update ..).mpr ⟨operation, hmem, if_pos rfl⟩, hid.symm, rfl⟩
        · rw [List.map_append, List.nodup_append]
          refine ⟨honce, by simp, ?_⟩
          intro id hreturnedId id' hid'
          obtain ⟨other, hother, rfl⟩ := List.mem_map.mp hreturnedId
          obtain ⟨row, hrow, hrowId, hrowConsumed⟩ := hreturned other hother
          rw [List.map_singleton, List.mem_singleton] at hid'
          intro hsame
          -- it would be the row that was consumed before
          have hnames : row.name = operation.name := by
            rw [← hinv.ids row hrow, ← hinv.ids operation hmem, hrowId, hsame, hid', hid]
          rw [Table.eq_of_mem hinv.unique hrow hmem hnames, hunconsumed] at hrowConsumed
          cases hrowConsumed

/-! ## The handoff -/

/-- For every sequence of calls: each operation's credential is returned at most once; rows keep
what they hold, and nothing changes after a consumption; a resent delivery of the owner is
acknowledged without a change where its credential is storable, and where it was the first of its
operation only then; and only the authenticated owner of a site creation is acknowledged. -/
theorem credential_handoff (hrun : Run (Step sanitizeHtml) [] labels operations) :
    ((labels.filterMap consumed?).map Consumed.operationId).Nodup ∧
    (∀ labels' later, Run (Step sanitizeHtml) operations labels' later → Kept operations later) ∧
    (∀ delivered, .stored delivered ∈ labels → Storable sanitizeHtml delivered.credential →
      ∀ request : StoreRequest, (request.value >>= delivery) = .ok delivered →
      request.authenticatePeer delivered.agentId = .ok () →
      storeCredentialRoute sanitizeHtml request operations = .ok operations) ∧
    (∀ request delivered later, (request.value >>= delivery) = .ok delivered →
      storeCredentialRoute sanitizeHtml request operations = .ok later → later ≠ operations →
      (storeCredentialRoute sanitizeHtml request later = .ok later ↔
        Storable sanitizeHtml delivered.credential)) ∧
    ∀ request later, storeCredentialRoute sanitizeHtml request operations = .ok later →
      ∃ delivered, (request.value >>= delivery) = .ok delivered ∧
        request.authenticatePeer delivered.agentId = .ok () ∧
        ∃ operation ∈ operations, Owns operation delivered := by
  have hinv := inv_of_run hrun
  refine ⟨(consumed_of_run hrun).2, fun _ _ hlater => kept_of_run hinv hlater, ?_,
    fun _ _ _ => resent_iff hinv, ?_⟩
  · intro delivered hmem hstorable request hdelivery hpeer
    obtain ⟨operation, hoperation, howns, hreceived, hsame⟩ :=
      delivered_of_run hrun hmem hstorable
    have hget := Table.get?_of_mem hinv.unique hoperation
    rw [show Named.name operation = delivered.operationId from howns.name] at hget
    exact storeCredentialRoute_again hdelivery hpeer hget howns hreceived hsame
  · intro request later h
    obtain ⟨value, hvalue, hrest⟩ := Transaction.bind_eq_ok.mp h
    obtain ⟨delivered, hfields, -⟩ := Transaction.bind_eq_ok.mp hrest
    have hdelivery : (request.value >>= delivery) = .ok delivered :=
      Transaction.bind_eq_ok.mpr ⟨value, hvalue, hfields⟩
    obtain ⟨hpeer, operation, hget, howns, -⟩ := storeCredentialRoute_eq_ok hdelivery h
    exact ⟨delivered, hdelivery, hpeer, operation, Table.get?_mem hget, howns⟩

namespace Sample

def operation : Handoff where
  name := "op-1"
  operationId := "op-1"
  operationType := "site.create_blank"
  serverAgent := "agent-1"
  requestedBy := "alice@example.com"
  administratorCredential := none
  credentialReceivedAt := none
  credentialConsumedAt := none

def request (credential : String) : StoreRequest where
  value := .ok [("protocol_version", .str "1.0"), ("agent_id", .str "agent-1"),
    ("audience", .str "frappe-controller"), ("operation_id", .str "op-1"),
    ("credential", .str credential)]
  authenticatePeer _ := .ok ()
  saves := true
  now := ⟨63903168000000000⟩

def delivered : Delivery := ⟨"agent-1", "op-1", "sensitive-value"⟩

/-- The filter leaves these texts as they are. -/
def unfiltered (value : String) : String := value

/-- The row after the first delivery. -/
def receivedOperation : Handoff :=
  received unfiltered "sensitive-value" (request "sensitive-value").now operation

def consume : ConsumeRequest where
  operationId := .str "op-1"
  user := some "alice@example.com"
  roles := []
  save := .ok ()
  now := ⟨63903168060000000⟩

def consumedOperations : List Handoff :=
  [consumed consume.now receivedOperation]

/-- The credential is delivered, consumed, and delivered again. -/
theorem run : Run (Step unfiltered) []
    [.authored operation, .stored delivered, .consumed ⟨"op-1", "sensitive-value"⟩,
      .stored delivered] consumedOperations := by
  have hdelivery : ((request "sensitive-value").value >>= delivery) = .ok delivered := by
    with_unfolding_all rfl
  have hconsume : consumeOperationCredential consume [receivedOperation]
      = .ok (⟨"op-1", "sensitive-value"⟩, consumedOperations) := by with_unfolding_all rfl
  have hauthored : Step unfiltered [] (.authored operation) [operation] :=
    .authored rfl rfl rfl rfl rfl
  have hstored : Step unfiltered [operation] (.stored delivered) [receivedOperation] :=
    .stored hdelivery (by with_unfolding_all rfl)
  have hconsumed : Step unfiltered [receivedOperation]
      (.consumed ⟨"op-1", "sensitive-value"⟩) consumedOperations :=
    .consumed hconsume
  have hagain : Step unfiltered consumedOperations (.stored delivered) consumedOperations :=
    .stored hdelivery (by with_unfolding_all rfl)
  exact (((Run.single hauthored).snoc hstored).snoc hconsumed).snoc hagain

/-- A credential of asterisks is acknowledged, and nothing is stored. -/
def dropped : Handoff :=
  { operation with credentialReceivedAt := some (request "********").now }

theorem droppedRun : Run (Step unfiltered) []
    [.authored operation, .stored ⟨"agent-1", "op-1", "********"⟩] [dropped] := by
  have hdelivery : ((request "********").value >>= delivery)
      = .ok ⟨"agent-1", "op-1", "********"⟩ := by with_unfolding_all rfl
  have hauthored : Step unfiltered [] (.authored operation) [operation] :=
    .authored rfl rfl rfl rfl rfl
  exact (Run.single hauthored).snoc (.stored hdelivery (by with_unfolding_all rfl))

end Sample

/-- The delivery after the consumption is acknowledged again. -/
theorem credential_handoff_sample :
    storeCredentialRoute Sample.unfiltered (Sample.request "sensitive-value")
        Sample.consumedOperations = .ok Sample.consumedOperations :=
  (credential_handoff Sample.run).2.2.1 Sample.delivered (by simp)
    (storable_of_plain (by decide) (by decide) (by decide)) (Sample.request "sensitive-value")
    (by with_unfolding_all rfl) rfl

/-- A credential of asterisks was acknowledged: the same delivery, resent by the owner, is refused
as a conflict, and there is nothing to consume. -/
theorem credential_dropped :
    Run (Step Sample.unfiltered) []
      [.authored Sample.operation, .stored ⟨"agent-1", "op-1", "********"⟩] [Sample.dropped] ∧
    storeCredentialRoute Sample.unfiltered (Sample.request "********") [Sample.dropped]
      = .error ⟨"credential_conflict", 409⟩ ∧
    consumeOperationCredential Sample.consume [Sample.dropped]
      = .error (.doesNotExist "Credential is unavailable or was already consumed") := by
  refine ⟨Sample.droppedRun, ?_, ?_⟩
  · with_unfolding_all rfl
  · with_unfolding_all rfl

end CredentialRoutes
end FrappeController
