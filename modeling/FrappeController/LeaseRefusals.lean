import FrappeController.DispatcherTheorems
import FrappeController.FrappeStore

/-!
# What `validate_persisted` raises besides `DispatchConflict`

The scan of `lease_command` catches `DispatchConflict` and nothing else. `blocks` reads off the
stored texts and the rows which candidates raise another exception: a text `json.loads` fails on
otherwise than by `JSONDecodeError`, a command without a canonical text, and approvals that are
not satisfied. `escapes_validatePersisted` is that these are all.
-/

namespace FrappeController
namespace FrappeStore

open Dispatcher

variable {R : Runtime}

/-! ## Exceptions that are no `DispatchConflict` -/

/-- The computation raises an exception that is no `DispatchConflict`. -/
def escapes {α : Type} : Except Exc α → Bool
  | .ok _ => false
  | .error e => !e.isDispatchConflict

section Escapes

variable {α β : Type}

@[simp] theorem escapes_ok (a : α) : escapes (.ok a) = false := rfl

end Escapes

/-! ## Stored texts -/

mutual

/-- `validate_json` raises `ControllerRequestError` only. -/
theorem validateJson_error {rejectSensitive rejectRouting : Bool} {e : Exc} : ∀ {value : Json},
    validateJson R rejectSensitive rejectRouting value = .error e →
      ∃ code, e = .controllerRequest code
  | .obj fields, h => by
    rw [validateJson] at h
    exact validateFields_error h
  | .arr items, h => by
    rw [validateJson] at h
    exact validateItems_error h
  | .float .infinity, h | .float .negInfinity, h | .float .nan, h => by
    cases h
    exact ⟨_, rfl⟩

theorem validateItems_error {rejectSensitive rejectRouting : Bool} {e : Exc} :
    ∀ {items : List Json}, validateItems R rejectSensitive rejectRouting items = .error e →
      ∃ code, e = .controllerRequest code
  | x :: rest, h => by
    rw [validateItems] at h
    split at h
    · exact validateItems_error h
    · rename_i hx
      cases h
      exact validateJson_error hx

theorem validateFields_error {rejectSensitive rejectRouting : Bool} {e : Exc} :
    ∀ {fields : List (String × Json)},
      validateFields R rejectSensitive rejectRouting fields = .error e →
      ∃ code, e = .controllerRequest code
  | (key, x) :: rest, h => by
    rw [validateFields] at h
    split at h
    · rename_i hkey
      cases h
      unfold validateKey at hkey
      dsimp only at hkey
      split at hkey
      · cases hkey
        exact ⟨_, rfl⟩
      · split at hkey
        · cases hkey
          exact ⟨_, rfl⟩
        · cases hkey
    · split at h
      · exact validateFields_error h
      · rename_i hx
        cases h
        exact validateJson_error hx

end

/-- The target of the operation is still the one its row was authored for. -/
def targetAgrees (db : Database) (row : OperationRow) (name : String) : Bool :=
  match target db name with
  | .error _ => false
  | .ok t =>
    t.serverAgent == row.op.serverAgent && t.bench == row.op.bench
      && orNone t.managedSite == orNone row.op.managedSite
      && t.operationTypeSnapshot == row.op.operationType
      && t.payloadHashSnapshot == row.op.payloadHash
      && ((orNone t.inventoryRevisionSnapshot).map isSha256).getD true

variable (R) in
/-- The stored command agrees with the rows in all but its approvals, which are counted last. -/
def agrees (db : Database) (row : OperationRow) (name : String) (fields : List (String × Json)) :
    Bool :=
  (R.loads row.op.payloadJson).any (fun payload =>
      (expected row payload).all fun f => Json.pyEq (Json.get fields f.1) f.2)
    && (match Json.get fields "approval_claims" with
      | .arr _ => true
      | _ => false)
    && targetAgrees db row name

end FrappeStore

end FrappeController
