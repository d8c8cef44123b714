import FrappeController.Tables

/-!
# Canonical JSON and the checks shared by the DocType classes

`security.validate_json` and `canonical_json`, and the helpers of
`frappe_controller/doctype/_invariants.py`.
-/

namespace FrappeController

/-! ## `security.py` -/

/-- `_FORBIDDEN_KEYS` -/
def forbiddenKeys : List String :=
  ["api_key", "api_secret", "authorization", "client_secret", "credential", "db_password",
    "password", "private_key", "secret", "token"]

/-- `_ROUTING_KEYS` -/
def routingKeys : List String :=
  ["compose_file", "backend_service", "sites_path", "host_staging_path",
    "container_staging_path", "db_secret_ref", "command", "shell", "sql"]

section ValidateJson

variable (R : Runtime) (rejectSensitive rejectRouting : Bool)

/-- The checks `validate_json` makes on one field name. -/
def validateKey (key : String) : Except Exc Unit :=
  let normalized := dashToUnderscore (R.casefold key)
  if rejectSensitive && forbiddenKeys.any (fun marker => containsText marker normalized) then
    .error (.controllerRequest "secret_field_rejected")
  else if rejectRouting && routingKeys.contains normalized then
    .error (.controllerRequest "routing_field_rejected")
  else .ok ()

mutual

/-- `security.validate_json` -/
def validateJson : Json → Except Exc Unit
  | .obj fields => validateFields fields
  | .arr items => validateItems items
  | .null | .str _ | .bool _ | .int _ | .float (.finite _) => .ok ()
  | .float _ => .error (.controllerRequest "invalid_json")

def validateItems : List Json → Except Exc Unit
  | [] => .ok ()
  | x :: xs =>
    match validateJson x with
    | .ok _ => validateItems xs
    | .error e => .error e

def validateFields : List (String × Json) → Except Exc Unit
  | [] => .ok ()
  | (key, x) :: xs =>
    match validateKey R rejectSensitive rejectRouting key with
    | .error e => .error e
    | .ok _ =>
      match validateJson x with
      | .ok _ => validateFields xs
      | .error e => .error e

end

end ValidateJson

/-- Without the key checks, an object is valid when its values are. -/
theorem validateFields_eq_ok {R : Runtime} {fields : List (String × Json)} :
    validateFields R false false fields = .ok () ↔
      ∀ f ∈ fields, validateJson R false false f.2 = .ok () := by
  induction fields with
  | nil => simp [validateFields]
  | cons f rest ih =>
    obtain ⟨key, value⟩ := f
    have hkey : validateKey R false false key = .ok () := rfl
    simp only [validateFields, hkey, List.forall_mem_cons]
    cases hvalue : validateJson R false false value with
    | ok u => simpa using ih
    | error e => simp

/-- `security.canonical_json` -/
def canonicalJson (R : Runtime) (value : Json) : Except Exc Text := do
  validateJson R false false value
  return R.dumps value

/-- `security.timestamp` -/
def timestamp (value : DateTime) : String := value.rfc3339

/-! ## `_invariants.py` -/

/-- `require_sha256` -/
def requireSha256 (value : Option String) (field : String) : Except Exc Unit :=
  if (value.map isSha256).getD false then .ok ()
  else .error (.validation (field ++ " must be a lowercase SHA-256 digest"))

/-- `require_json` for `Mapping` and `dict`, the two types it is called with. -/
def requireJson (R : Runtime) (value : Option Text) (field : String) :
    Except Exc (List (String × Json)) :=
  match R.loads (value.getD []) with
  | none => .error (.validation (field ++ " must contain valid JSON"))
  | some (.obj fields) => .ok fields
  | some _ => .error (.validation (field ++ " has the wrong JSON shape"))

/-- `require_json` for `list`, on a column read as `value or "[]"`. -/
def requireJsonList (R : Runtime) (value : Option Text) (field : String) :
    Except Exc (List Json) :=
  match R.loads ((value.filter (· ≠ [])).getD "[]".toList) with
  | none => .error (.validation (field ++ " must contain valid JSON"))
  | some (.arr items) => .ok items
  | some _ => .error (.validation (field ++ " has the wrong JSON shape"))

/-- `require_json` on a column that may be NULL. -/
def requireOptionalJson (R : Runtime) (value : Option Text) (field : String) : Except Exc Unit :=
  match value with
  | none => .ok ()
  | some text => (requireJson R (some text) field).map fun _ => ()

/-- One column `immutable_fields` compares with the row before the save. -/
def immutableField {α : Type} [DecidableEq α] (previous current : α) (field : String) :
    Except Exc Unit :=
  if previous = current then .ok () else .error (.validation (field ++ " is immutable"))

theorem immutableField_eq_ok {α : Type} [DecidableEq α] {previous current : α} {field : String}
    {u : Unit} : immutableField previous current field = .ok u ↔ previous = current := by
  by_cases h : previous = current <;> simp [immutableField, h]

/-- `legal_transition`: a changed state must be a successor the table lists. -/
def legalTransition {α : Type} [DecidableEq α] (successors : α → List α)
    (illegal : α → α → Exc) (previous current : α) : Except Exc Unit :=
  if previous = current ∨ current ∈ successors previous then .ok ()
  else .error (illegal previous current)

/-- `require_link_value` -/
def requireLinkValue {ρ : Type} [Named ρ] (table : List ρ) (name : Option String)
    (column : ρ → String) (expected : String) : Except Exc Unit :=
  let linked := name.bind fun n => (Table.get? table n).map column
  if truthy name && linked == some expected then .ok ()
  else .error (.validation "Linked ownership does not match")

/-- Raise unless the condition holds. -/
def ensure (condition : Bool) (e : Exc) : Except Exc Unit :=
  if condition then .ok () else .error e

@[simp] theorem ensure_eq_ok {condition : Bool} {e : Exc} {u : Unit} :
    ensure condition e = .ok u ↔ condition = true := by
  cases condition <;> simp [ensure]

@[simp] theorem ensure_true {e : Exc} : ensure true e = .ok () := rfl

@[simp] theorem ensure_false {e : Exc} : ensure false e = .error e := rfl

theorem legalTransition_eq_ok {α : Type} [DecidableEq α] {successors : α → List α}
    {illegal : α → α → Exc} {previous current : α} :
    legalTransition successors illegal previous current = .ok () ↔
      previous = current ∨ current ∈ successors previous := by
  unfold legalTransition
  split <;> simp_all

end FrappeController
