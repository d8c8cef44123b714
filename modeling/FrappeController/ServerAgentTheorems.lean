import FrappeController.FrappeInventoryTheorems
import FrappeController.ServerAgents

/-!
# What `ServerAgent.validate` accepts, and what a save leaves behind

A document is accepted exactly when its own columns are `Sound` and the change from the stored
row is `Permitted`. Soundness looks at one row only, so it is what a later save of the same
columns needs.
-/

namespace FrappeController

open Transaction (bind_eq_ok bind_eq_error)

/-! ## The exceptions a computation raises -/

/-- Every exception `x` raises satisfies `p`. -/
def Raises {α : Type} (p : Exc → Prop) (x : Except Exc α) : Prop := ∀ e, x = .error e → p e

namespace Raises

variable {α β : Type} {p : Exc → Prop}

/-- A result raises nothing. -/
theorem ok (a : α) : Raises p (.ok a) := by
  intro e h
  cases h

/-- An exception is raised as it is. -/
theorem error {e : Exc} (h : p e) : Raises p (.error e : Except Exc α) := by
  intro e' h'
  cases h'
  exact h

/-- A check raises its own exception. -/
theorem ensure {c : Bool} {e : Exc} (h : p e) : Raises p (ensure c e) := by
  cases c with
  | true => exact ok ()
  | false => exact error h

/-- Two steps raise what either of them raises. -/
theorem bind {x : Except Exc α} {f : α → Except Exc β} (hx : Raises p x)
    (hf : ∀ a, x = .ok a → Raises p (f a)) : Raises p (x >>= f) := by
  intro e h
  rcases bind_eq_error.mp h with h | ⟨a, ha, h⟩
  · exact hx e h
  · exact hf a ha e h

end Raises

/-- The exception of the transition table. -/
def Exc.refusedByTable : Exc → Bool
  | .illegalUpgradeTransition _ _ => true
  | _ => false

namespace ServerAgent

variable {R : Runtime}

/-! ## Acceptance -/

variable (R) in
/-- The columns of a row satisfy every check `validate` makes on the document alone. -/
structure Sound (a : ServerAgent) : Prop where
  identity : validateIdentity a = .ok ()
  capabilities : (requireJsonList R a.capabilitiesJson "capabilities_json").isOk = true
  policy : validatePolicy R a = .ok ()
  keys : validateKeys a = .ok ()
  texts : validateUpgradeTexts a = .ok ()
  state : validateUpgradeState a = .ok ()

/-- Normalizing keeps the name. -/
theorem normalize_name (a : ServerAgent) : (normalize a).name = a.name := by
  unfold normalize
  split <;> rfl

/-- Only the status depends on whether the agent is enabled. -/
theorem normalize_eq (a : ServerAgent) :
    normalize a = { a with status := (normalize a).status } := by
  unfold normalize
  split <;> rfl

/-- No check reads the status. -/
theorem sound_status {a : ServerAgent} {status : AgentStatus} :
    Sound R { a with status } ↔ Sound R a :=
  ⟨fun h => ⟨h.identity, h.capabilities, h.policy, h.keys, h.texts, h.state⟩,
    fun h => ⟨h.identity, h.capabilities, h.policy, h.keys, h.texts, h.state⟩⟩

/-- Soundness reads no column that is normalized. -/
theorem sound_normalize {a : ServerAgent} : Sound R (normalize a) ↔ Sound R a := by
  rw [normalize_eq]
  exact sound_status

/-- No check reads the stamp. -/
theorem sound_modified {a : ServerAgent} {modified : DateTime} :
    Sound R { a with modified } ↔ Sound R a :=
  ⟨fun h => ⟨h.identity, h.capabilities, h.policy, h.keys, h.texts, h.state⟩,
    fun h => ⟨h.identity, h.capabilities, h.policy, h.keys, h.texts, h.state⟩⟩

/-- The check of the upgrade texts reads no column that is normalized. -/
theorem validateUpgradeTexts_normalize (a : ServerAgent) :
    validateUpgradeTexts (normalize a) = validateUpgradeTexts a := by
  rw [normalize_eq]
  rfl

/-- The check of the upgrade state reads no column that is normalized. -/
theorem validateUpgradeState_normalize (a : ServerAgent) :
    validateUpgradeState (normalize a) = validateUpgradeState a := by
  rw [normalize_eq]
  rfl

/-- The comparison with the stored row reads no column that is normalized. -/
theorem validatePrevious_normalize (previous : Option ServerAgent) (service : Bool)
    (a : ServerAgent) :
    validatePrevious previous service (normalize a) = validatePrevious previous service a := by
  rw [normalize_eq]
  rfl

/-- `validate` accepts the documents that are sound by themselves and a permitted change of the
stored row; all it changes is the status of a disabled agent. -/
theorem validate_eq_ok {previous : Option ServerAgent} {service : Bool} {a b : ServerAgent} :
    validate R previous service a = .ok b ↔
      Sound R a ∧ validatePrevious previous service a = .ok () ∧ b = normalize a := by
  unfold validate
  simp only [bind_eq_ok, validateUpgradeTexts_normalize, validateUpgradeState_normalize,
    validatePrevious_normalize]
  constructor
  · rintro ⟨⟨⟩, hidentity, items, hcapabilities, ⟨⟩, hpolicy, ⟨⟩, hkeys, ⟨⟩, htexts, ⟨⟩, hstate,
      ⟨⟩, hprevious, hb⟩
    refine ⟨⟨hidentity, ?_, hpolicy, hkeys, htexts, hstate⟩, hprevious, ?_⟩
    · rw [hcapabilities]
      rfl
    · exact (Except.ok.inj hb).symm
  · rintro ⟨h, hprevious, rfl⟩
    obtain ⟨items, hitems⟩ := Transaction.exists_eq_ok_of_isOk h.capabilities
    exact ⟨(), h.identity, items, hitems, (), h.policy, (), h.keys, (), h.texts, (), h.state, (),
      hprevious, rfl⟩

/-- What the comparison with the stored row permits. -/
structure Permitted (row : ServerAgent) (service : Bool) (a : ServerAgent) : Prop where
  fields : upgradeFields row = upgradeFields a ∨ service = true
  transition : row.upgradeState = a.upgradeState ∨ a.upgradeState ∈ row.upgradeState.transitions
  agentId : row.agentId = a.agentId

/-- An accepted change is permitted. -/
theorem validatePrevious_some {row : ServerAgent} {service : Bool} {a : ServerAgent}
    (h : validatePrevious (some row) service a = .ok ()) : Permitted row service a := by
  simp only [validatePrevious, bind_eq_ok, ensure_eq_ok, Bool.or_eq_true, decide_eq_true_eq] at h
  obtain ⟨⟨⟩, hfields, ⟨⟩, htransition, ⟨⟩, hagent, -⟩ := h
  refine ⟨hfields, legalTransition_eq_ok.mp htransition, ?_⟩
  unfold immutableField at hagent
  by_contra hne
  rw [if_neg hne] at hagent
  cases hagent

/-- A row may always be saved as it is. -/
theorem validatePrevious_self (row : ServerAgent) (service : Bool) :
    validatePrevious (some row) service row = .ok () := by
  have hstate : legalTransition UpgradeState.transitions .illegalUpgradeTransition
      row.upgradeState row.upgradeState = .ok () := legalTransition_eq_ok.mpr (.inl rfl)
  simp [validatePrevious, bind_eq_ok, hstate, immutableField]

variable (R) in
/-- Saving the document with no field changed passes `ServerAgent.validate`. -/
def Savable (row : ServerAgent) : Prop := (validate R (some row) false row).isOk = true

/-- A stored row can be saved again exactly when it is sound. -/
theorem savable_iff {row : ServerAgent} : Savable R row ↔ Sound R row := by
  constructor
  · intro h
    obtain ⟨b, hb⟩ := Transaction.exists_eq_ok_of_isOk h
    exact (validate_eq_ok.mp hb).1
  · intro h
    unfold Savable
    rw [validate_eq_ok.mpr ⟨h, validatePrevious_self row false, rfl⟩]
    rfl

/-! ## Refusals -/

section Refusals

/-- Not the refusal of the transition table. -/
abbrev OtherRefusal (e : Exc) : Prop := e.refusedByTable = false

/-- The check of a list raises no refusal of the transition table. -/
theorem raises_requireJsonList (value : Option Text) (field : String) :
    Raises OtherRefusal (requireJsonList R value field) := by
  unfold requireJsonList
  split
  · exact .error rfl
  · exact .ok _
  · exact .error rfl

/-- The check of a digest raises none. -/
theorem raises_checkDigest (value : Option String) (field : String) :
    Raises OtherRefusal (checkDigest value field) := .ensure rfl

/-- The check of the identity raises none. -/
theorem raises_validateIdentity (a : ServerAgent) : Raises OtherRefusal (validateIdentity a) := by
  refine .bind (.ensure rfl) fun _ _ => .bind (.ensure rfl) fun _ _ => ?_
  split
  · exact .ok ()
  · split
    · exact .error rfl
    · exact .ensure rfl

/-- The check of the policy raises none. -/
theorem raises_validatePolicy (a : ServerAgent) : Raises OtherRefusal (validatePolicy R a) := by
  refine .bind (raises_requireJsonList _ _) fun _ _ => ?_
  refine .bind (raises_requireJsonList _ _) fun _ _ => ?_
  exact .bind (.ensure rfl) fun _ _ => .bind (.ensure rfl) fun _ _ => .ensure rfl

/-- The check of the keys raises none. -/
theorem raises_validateKeys (a : ServerAgent) : Raises OtherRefusal (validateKeys a) := by
  refine .bind (raises_checkDigest _ _) fun _ _ => .bind (raises_checkDigest _ _) fun _ _ => ?_
  exact .bind (raises_checkDigest _ _) fun _ _ => .ensure rfl

/-- The check of the upgrade texts raises none. -/
theorem raises_validateUpgradeTexts (a : ServerAgent) :
    Raises OtherRefusal (validateUpgradeTexts a) := by
  refine .bind (.ensure rfl) fun _ _ => .bind (.ensure rfl) fun _ _ => ?_
  refine .bind (raises_checkDigest _ _) fun _ _ => .bind (raises_checkDigest _ _) fun _ _ => ?_
  exact .bind (raises_checkDigest _ _) fun _ _ => .ensure rfl

/-- The check of an upgrade that ended raises none. -/
theorem raises_validateTerminal (a : ServerAgent) : Raises OtherRefusal (validateTerminal a) := by
  unfold validateTerminal
  split
  · exact .ok ()
  · exact .ensure rfl

/-- The check of the columns of a state raises none. -/
theorem raises_validateUpgradeState (a : ServerAgent) :
    Raises OtherRefusal (validateUpgradeState a) := by
  refine .bind (.ensure rfl) fun _ _ => .bind (.ensure rfl) fun _ _ => ?_
  refine .bind (.ensure rfl) fun _ _ => .bind (raises_validateTerminal a) fun _ _ => ?_
  exact .ensure rfl

/-- The comparison of an immutable column raises none. -/
theorem raises_immutableField {α : Type} [DecidableEq α] (previous current : α) (field : String) :
    Raises OtherRefusal (immutableField previous current field) := by
  unfold immutableField
  split
  · exact .ok ()
  · exact .error rfl

/-- A transition the table lists is not refused by it. -/
theorem raises_validatePrevious {row : ServerAgent} {service : Bool} {a : ServerAgent}
    (h : row.upgradeState = a.upgradeState ∨ a.upgradeState ∈ row.upgradeState.transitions) :
    Raises OtherRefusal (validatePrevious (some row) service a) := by
  refine .bind (.ensure rfl) fun _ _ => ?_
  rw [legalTransition_eq_ok.mpr h]
  refine .bind (.ok ()) fun _ _ => .bind (raises_immutableField _ _ _) fun _ _ => ?_
  exact .bind (raises_immutableField _ _ _) fun _ _ => raises_immutableField _ _ _

/-- A document whose transition is in the table is refused for other reasons only. -/
theorem raises_validate {row : ServerAgent} {service : Bool} {a : ServerAgent}
    (h : row.upgradeState = a.upgradeState ∨ a.upgradeState ∈ row.upgradeState.transitions) :
    Raises OtherRefusal (validate R (some row) service a) := by
  refine .bind (raises_validateIdentity a) fun _ _ => ?_
  refine .bind (raises_requireJsonList _ _) fun _ _ => ?_
  refine .bind (raises_validatePolicy a) fun _ _ => .bind (raises_validateKeys a) fun _ _ => ?_
  refine .bind (raises_validateUpgradeTexts _) fun _ _ => ?_
  refine .bind (raises_validateUpgradeState _) fun _ _ => ?_
  rw [validatePrevious_normalize]
  exact .bind (raises_validatePrevious h) fun _ _ => .ok _

end Refusals

/-! ## Inserting and saving -/

section Document

open FrappeInventory (Session)

variable {now : DateTime} {a b : ServerAgent} {s s' : Session}

/-- The row a document is written as. -/
def stored (now : DateTime) (a : ServerAgent) : ServerAgent := { normalize a with modified := now }

/-- The stored row has the name of the document. -/
theorem stored_name (now : DateTime) (a : ServerAgent) : (stored now a).name = a.name :=
  normalize_name a

/-- The stored row is sound when the document is. -/
theorem sound_stored : Sound R (stored now a) ↔ Sound R a := sound_modified.trans sound_normalize

/-- What an accepted insert did. -/
theorem insert_eq_ok {u : Unit} (h : insert R now a s = .ok u s') :
    Table.get? s.current.agents a.agentId = none ∧ Sound R { a with name := a.agentId } ∧
      untouched a = true ∧
      s'.current = { s.current with
        agents := s.current.agents ++ [stored now { a with name := a.agentId }] } := by
  unfold insert at h
  obtain ⟨⟨⟩, s₁, hread, hrest⟩ := Transaction.bind_apply_eq_ok.mp h
  obtain ⟨hfresh, rfl⟩ := FrappeInventory.readForUpdate_eq_ok.mp hread
  obtain ⟨doc, s₂, hquery, hwrite⟩ := Transaction.bind_apply_eq_ok.mp hrest
  obtain ⟨hvalid, rfl⟩ := Transaction.query_eq_ok.mp hquery
  obtain ⟨hsound, hprevious, rfl⟩ := validate_eq_ok.mp hvalid
  rw [FrappeInventory.write_eq_ok] at hwrite
  subst hwrite
  refine ⟨?_, hsound, ?_, rfl⟩
  · simpa using hfresh
  · simpa [validatePrevious, untouched] using hprevious

/-- What an accepted save did: the copy carries the stamp of the row it replaces. -/
structure Saved (R : Runtime) (now : DateTime) (service : Bool) (a : ServerAgent)
    (s s' : Session) (row : ServerAgent) : Prop where
  found : Table.get? s.current.agents a.name = some row
  stamp : row.modified = a.modified
  sound : Sound R a
  permitted : Permitted row service a
  written : s'.current = { s.current with
    agents := Table.setValue a.name (fun _ => stored now a) s.current.agents }

/-- A save goes on when the row is still the one that was loaded. -/
theorem checkIfLatest_eq_ok {db : Database} {row : ServerAgent} :
    checkIfLatest a db = .ok row ↔
      Table.get? db.agents a.name = some row ∧ row.modified = a.modified := by
  unfold checkIfLatest
  cases hrow : Table.get? db.agents a.name with
  | none => simp
  | some found =>
    simp only [bind_eq_ok, ensure_eq_ok, beq_iff_eq, Option.some.injEq]
    constructor
    · rintro ⟨-, hstamp, hfound⟩
      cases hfound
      exact ⟨rfl, hstamp⟩
    · rintro ⟨rfl, hstamp⟩
      exact ⟨(), hstamp, rfl⟩

/-- The comparison of the timestamps raises none. -/
theorem raises_checkIfLatest (db : Database) : Raises OtherRefusal (checkIfLatest a db) := by
  unfold checkIfLatest
  split
  · exact .error rfl
  · exact .bind (.ensure rfl) fun _ _ => .ok _

/-- A save replaces the row of its document by what it stored. -/
theorem save_eq_ok {service : Bool} (h : save R now service a s = .ok b s') :
    b = stored now a ∧ ∃ row, Saved R now service a s s' row := by
  unfold save at h
  obtain ⟨row, s₁, hread, hrest⟩ := Transaction.bind_apply_eq_ok.mp h
  obtain ⟨hrow, rfl⟩ := FrappeInventory.readForUpdate_eq_ok.mp hread
  obtain ⟨hfound, hstamp⟩ := checkIfLatest_eq_ok.mp hrow
  obtain ⟨doc, s₂, hquery, hlast⟩ := Transaction.bind_apply_eq_ok.mp hrest
  obtain ⟨hvalid, rfl⟩ := Transaction.query_eq_ok.mp hquery
  obtain ⟨hsound, hprevious, rfl⟩ := validate_eq_ok.mp hvalid
  obtain ⟨u, s₃, hwrite, hb⟩ := Transaction.bind_apply_eq_ok.mp hlast
  rw [FrappeInventory.write_eq_ok] at hwrite
  subst hwrite
  cases hb
  refine ⟨rfl, row, hfound, hstamp, hsound, validatePrevious_some hprevious, ?_⟩
  show { s.current with
    agents := Table.setValue (normalize a).name (fun _ => stored now a) s.current.agents } = _
  rw [normalize_name]

/-- A save is refused by the transition table only if the table does not list the transition. -/
theorem save_raises {service : Bool} {e : Exc}
    (hlegal : ∀ row, Table.get? s.current.agents a.name = some row → row.modified = a.modified →
      row.upgradeState = a.upgradeState ∨ a.upgradeState ∈ row.upgradeState.transitions)
    (h : save R now service a s = .error e s') : OtherRefusal e := by
  unfold save at h
  rw [Transaction.bind_apply] at h
  unfold FrappeInventory.readForUpdate at h
  rw [Transaction.query_apply] at h
  cases hrow : checkIfLatest a s.current with
  | error e' =>
    rw [hrow] at h
    cases h
    exact raises_checkIfLatest _ _ hrow
  | ok row =>
    rw [hrow] at h
    obtain ⟨hfound, hstamp⟩ := checkIfLatest_eq_ok.mp hrow
    cases hvalid : validate R (some row) service a with
    | error e' =>
      simp only [Transaction.bind_apply, Transaction.query_apply, hvalid] at h
      cases h
      exact raises_validate (hlegal row hfound hstamp) _ hvalid
    | ok doc =>
      simp only [Transaction.bind_apply, Transaction.query_apply, hvalid] at h
      cases h

end Document

end ServerAgent

end FrappeController
