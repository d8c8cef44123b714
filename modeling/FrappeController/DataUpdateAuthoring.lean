import FrappeController.JsonReader
import FrappeController.LifecycleAuthoring

/-!
# `data_update_authoring.py`: previews and promotions of data updates

`normalize_data_update_command` checks the command of a data update against its contract and
writes it in normal form: texts in NFC, instants in UTC, every field present. As for lifecycle
payloads the command is whatever `json.loads` may return.
-/

namespace FrappeController

/-- What `datetime.fromisoformat(text)` and the conversion to UTC give: an instant that leaves
the years of `datetime` has none. -/
inductive IsoTime where
  | invalid
  | naive
  | aware (utc : Option DateTime)
  deriving DecidableEq, Repr

/-- The tables of Unicode and the calendar. -/
structure TextLibrary extends StrLibrary where
  /-- `unicodedata.normalize("NFC", s)` -/
  nfc : PyStr → PyStr
  /-- `datetime.fromisoformat(s)` -/
  fromisoformat : PyStr → IsoTime

namespace PyJson

/-- `set(fields) == names` -/
def sameKeys (fields : Fields) (names : List String) : Bool :=
  keysWithin fields names && names.all fun name => (field? fields name).isSome

/-- `isinstance(value, (list, Mapping))` -/
def isContainer : PyJson → Bool
  | .arr _ | .obj _ => true
  | _ => false

end PyJson

namespace DataUpdateAuthoring

open PyJson

/-! ## Constants -/

/-- `_OPERATIONS` -/
def operations : List String := ["data.update", "data.update.break_glass"]

/-- `_OPERATORS` -/
def operators : List String := ["eq", "ne", "in", "not_in", "lt", "lte", "gt", "gte"]

/-- `_SYSTEM` -/
def systemFields : List String :=
  ["_assign", "_comments", "_liked_by", "_seen", "_user_tags", "creation", "docstatus",
    "doctype", "idx", "modified", "modified_by", "name", "owner", "parent", "parentfield",
    "parenttype", "allow_on_submit", "autoname", "depends_on", "fieldname", "fieldtype",
    "hidden", "options", "permlevel", "read_only", "reqd", "unique", "roles", "username",
    "user_type"]

/-- `_FORBIDDEN_DOCTYPES` -/
def forbiddenDoctypes : List String :=
  ["agent certificate", "authentication log", "client script", "custom docperm", "custom field",
    "connected app", "docfield", "docperm", "doctype", "has role", "installed applications",
    "module def", "oauth bearer token", "oauth client", "oauth scope", "operation approval",
    "property setter", "role", "role profile", "server script", "singles", "system settings",
    "user permission", "user"]

/-- The words `_secret` looks for. -/
def secretWords : List String :=
  ["auth", "authorization", "credential", "credentials", "password", "passwd", "secret", "token"]

/-- `_SECRET_WORDS` -/
def secretNames : List String :=
  secretWords ++ ["api_key", "api_secret", "private_key", "encryption_key"]

/-- `_fail` -/
def failWith {α : Type} (message : String) : Except AuthoringFault α := .error (.contract message)

def fail {α : Type} : Except AuthoringFault α := failWith "data update payload is invalid"

/-- Raise unless the condition holds. -/
def requireWith (message : String) (condition : Bool) : Except AuthoringFault Unit :=
  if condition then .ok () else failWith message

def require (condition : Bool) : Except AuthoringFault Unit :=
  requireWith "data update payload is invalid" condition

/-- `s in names` -/
def isOneOf (s : PyStr) (names : List String) : Bool := (names.map PyStr.ofString).contains s

/-! ## Names -/

/-- A code point of an ASCII character the predicate holds of. -/
def isAscii (p : Char → Bool) (c : CodePoint) : Bool := (c.toChar?).any p

def isLowerOrDigit (c : Char) : Bool := ('a' ≤ c && c ≤ 'z') || ('0' ≤ c && c ≤ '9')

def isUpper (c : Char) : Bool := 'A' ≤ c && c ≤ 'Z'

/-- `re.sub(r"([a-z0-9])([A-Z])", r"\1_\2", value)` -/
def snake : PyStr → PyStr
  | c :: d :: rest =>
    if isAscii isLowerOrDigit c && isAscii isUpper d then c :: .ofChar '_' :: snake (d :: rest)
    else c :: snake (d :: rest)
  | s => s

/-- The runs of `[a-z0-9]`, the one that is being read first. -/
def runs : PyStr → PyStr → List PyStr
  | current, [] => if current = [] then [] else [current]
  | current, c :: rest =>
    if isAscii isLowerOrDigit c then runs (current ++ [c]) rest
    else if current = [] then runs [] rest
    else current :: runs [] rest

section Library

variable (lib : TextLibrary)

/-- `_words` -/
def words (value : PyStr) : List PyStr := runs [] (lib.casefold (snake value))

/-- `_secret`: the name its second comparison takes is its words with underscores between. -/
def secret (value : PyStr) : Bool :=
  (words lib value).any (isOneOf · secretWords)
    || isOneOf ((words lib value).intersperse [.ofChar '_']).flatten secretNames

/-- `_FIELD` -/
def isField (text : String) : Bool :=
  match text.toList with
  | [] => false
  | c :: rest => c.isAlpha && rest.length ≤ 139 && rest.all fun c => c.isAlphanum || c == '_'

/-- `_DOCTYPE` -/
def isDoctype (text : String) : Bool :=
  match text.toList with
  | [] => false
  | c :: rest =>
    c.isAlpha && rest.length ≤ 139
      && rest.all fun c => c.isAlphanum || c == ' ' || c == '_' || c == '-'

/-- `_POLICY` -/
def isPolicy (text : String) : Bool :=
  match text.toList with
  | [] => false
  | c :: rest =>
    isLowerOrDigit c && rest.length ≤ 127
      && rest.all fun c => isLowerOrDigit c || c == '.' || c == '_' || c == ':' || c == '-'

/-- `_field` -/
def fieldName (value : PyJson) : Except AuthoringFault PyStr :=
  match value with
  | .str s => do
    require (lib.nfc s == s && s.fullmatch isField)
    requireWith "sensitive, authentication, schema, and system fields are forbidden"
      (!isOneOf (lib.casefold s) systemFields && !secret lib s)
    return s
  | _ => fail

/-- `_doctype` -/
def doctype (value : PyJson) : Except AuthoringFault PyStr :=
  match value with
  | .str s => do
    require (s.isStripped && lib.nfc s == s && s.fullmatch isDoctype)
    requireWith "authentication, schema, and system DocTypes are forbidden"
      (!isOneOf (lib.casefold s) forbiddenDoctypes
        && !(PyStr.ofString "oauth ").isPrefixOf (lib.casefold s)
        && !(PyStr.ofString "integration request").isPrefixOf (lib.casefold s)
        && !secret lib s)
    return s
  | _ => fail

/-! ## Values -/

/-- `len(s.encode())` -/
def encodedLength (s : PyStr) : Except AuthoringFault ℕ :=
  match s.encode? with
  | some text => .ok (utf8Length text)
  | none => .error .unicodeEncodeError

/-- The line breaks and the NUL a text may not have. -/
def isPrintable (s : PyStr) : Bool :=
  !s.hasChar (Char.ofNat 0) && !s.hasChar '\r' && !s.hasChar '\n'

/-- `_text` -/
def trimmedText (maximum : ℕ) (value : PyJson) : Except AuthoringFault PyStr :=
  match value with
  | .str s => do
    require (!s.isEmpty && s.isStripped && lib.nfc s == s)
    let length ← encodedLength s
    require (length ≤ maximum && isPrintable s)
    return s
  | _ => fail

/-- `1e100` -/
def maximumFloat : ℚ :=
  10000000000000000159028911097599180468360808563945281389781327557747838772170381060813469985856815104

/-- The strings of `_value`. -/
def valueText (s : PyStr) : Except AuthoringFault PyJson := do
  require (!s.hasChar (Char.ofNat 0))
  let length ← encodedLength s
  require (length ≤ 32 * 1024)
  return .str s

/-- `_value` of what is neither an array nor an object. -/
def scalar (value : PyJson) : Except AuthoringFault PyJson :=
  match value with
  | .null => .ok .null
  | .bool b => .ok (.bool b)
  | .int n => if n.natAbs ≤ 10 ^ 38 - 1 then .ok (.int n) else fail
  | .float (.finite q) => if -maximumFloat ≤ q ∧ q ≤ maximumFloat then .ok (.float (.finite q)) else fail
  | .str s => valueText (lib.nfc s)
  | _ => fail

/-- `budget[0] += 1` and its check. -/
def spend (depth used : ℕ) : Except AuthoringFault ℕ :=
  if depth ≤ 8 ∧ used + 1 ≤ 1000 then .ok (used + 1) else fail

/-- The checks of `_value` on a key, `seen` the keys before it. -/
def nestedKey (seen : List PyStr) (key : PyStr) : Except AuthoringFault Unit := do
  requireWith "secret-shaped nested JSON fields are forbidden" (!key.isEmpty && key.isStripped)
  let length ← encodedLength key
  requireWith "secret-shaped nested JSON fields are forbidden" (length ≤ 140 && !secret lib key)
  require (lib.nfc key == key && !seen.contains key)

mutual

/-- `_value`, with the budget used so far before and after. -/
def nested : PyJson → ℕ → ℕ → Except AuthoringFault (PyJson × ℕ)
  | .arr items, depth, used => do
    let used ← spend depth used
    require (items.length ≤ 100)
    let (items, used) ← nestedItems items (depth + 1) used
    return (.arr items, used)
  | .obj fields, depth, used => do
    let used ← spend depth used
    require (fields.length ≤ 32)
    let (fields, used) ← nestedFields fields [] (depth + 1) used
    return (.obj fields, used)
  | value, depth, used => do
    let used ← spend depth used
    return (← scalar lib value, used)

def nestedItems : List PyJson → ℕ → ℕ → Except AuthoringFault (List PyJson × ℕ)
  | [], _, used => .ok ([], used)
  | x :: rest, depth, used => do
    let (x, used) ← nested x depth used
    let (rest, used) ← nestedItems rest depth used
    return (x :: rest, used)

def nestedFields : Fields → List PyStr → ℕ → ℕ → Except AuthoringFault (Fields × ℕ)
  | [], _, _, used => .ok ([], used)
  | (key, x) :: rest, seen, depth, used => do
    nestedKey lib seen key
    let (x, used) ← nested x depth used
    let (rest, used) ← nestedFields rest (seen ++ [key]) depth used
    return ((key, x) :: rest, used)

end

/-- `_value` of a whole value. -/
def value (raw : PyJson) : Except AuthoringFault PyJson := do
  let (normalized, _) ← nested lib raw 0 0
  return normalized

/-- `value.replace("Z", "+00:00")` -/
def utcOffset (s : PyStr) : PyStr :=
  s.flatMap fun c => if c = CodePoint.ofChar 'Z' then PyStr.ofString "+00:00" else [c]

/-- `_timestamp` -/
def timestamp (raw : PyJson) : Except AuthoringFault PyStr := do
  let s ← trimmedText lib 64 raw
  match lib.fromisoformat (utcOffset s) with
  | .invalid | .naive => fail
  | .aware none => .error .overflowError
  | .aware (some utc) => return .ofString utc.rfc3339

/-! ## Payloads -/

/-- The fields of a payload. -/
def payloadNames : List String :=
  ["contract_version", "doctype", "document_names", "filters", "changes", "expected_modified",
    "dry_run", "maximum_rows", "reason"]

/-- `raw.get("contract_version") == "1.0" and raw.get("dry_run") is dry_run` -/
def checkContract (payload : Fields) (dryRun : Bool) : Except AuthoringFault Unit :=
  match field payload "contract_version", field payload "dry_run" with
  | .str version, .bool b =>
    require (sameKeys payload payloadNames && version == .ofString "1.0" && b == dryRun)
  | _, _ => fail

/-- `raw.get("maximum_rows")` -/
def maximumRows (raw : PyJson) : Except AuthoringFault ℤ :=
  match raw with
  | .int n => if 1 ≤ n ∧ n ≤ 100 then .ok n else fail
  | _ => fail

/-- `isinstance(value, list) and bool(value)` -/
def isSelection : PyJson → Bool
  | .arr items => !items.isEmpty
  | _ => false

/-- `raw.get("document_names")` -/
def documentNames (raw : PyJson) : Except AuthoringFault (Option (List PyStr)) :=
  match raw with
  | .null => .ok none
  | .arr items => do
    require (!items.isEmpty && items.length ≤ 100)
    let names ← items.mapM (trimmedText lib 140)
    require (decide (names.map lib.casefold).Nodup)
    return some names
  | _ => fail

/-- `item["operator"]`, a member of a set: an array or an object cannot be hashed. -/
def operator (raw : PyJson) : Except AuthoringFault PyStr :=
  match raw with
  | .str s => if isOneOf s operators then .ok s else fail
  | .arr _ | .obj _ => .error .typeError
  | _ => fail

/-- The value a filter compares with. -/
def checkOperand (operator : PyStr) (operand : PyJson) : Except AuthoringFault Unit :=
  match operand with
  | .arr items =>
    require (isOneOf operator ["in", "not_in"] && !items.isEmpty && !items.any isContainer)
  | .obj _ => fail
  | .null => require (!isOneOf operator ["in", "not_in"] && !isOneOf operator ["lt", "lte", "gt", "gte"])
  | _ => require (!isOneOf operator ["in", "not_in"])

def filterNames : List String := ["field", "operator", "value"]

/-- One filter in normal form. -/
def filterFields (name operator : PyStr) (operand : PyJson) : PyJson :=
  .obj [(.ofString "field", .str name), (.ofString "operator", .str operator),
    (.ofString "value", operand)]

/-- One of `raw.get("filters")`. -/
def filter (raw : PyJson) : Except AuthoringFault PyJson :=
  match raw with
  | .obj item => do
    require (sameKeys item filterNames)
    let operator ← operator (field item "operator")
    let operand ← value lib (field item "value")
    checkOperand operator operand
    let name ← fieldName lib (field item "field")
    return filterFields name operator operand
  | _ => fail

/-- `raw.get("filters")` -/
def filters (raw : PyJson) : Except AuthoringFault PyJson :=
  match raw with
  | .null => .ok .null
  | .arr items => do
    require (!items.isEmpty && items.length ≤ 20)
    return .arr (← items.mapM (filter lib))
  | _ => fail

/-- `{_field(key): _value(value) for key, value in changes.items()}` -/
def changedFields : Fields → Fields → Except AuthoringFault Fields
  | done, [] => .ok done
  | done, (key, x) :: rest => do
    let key ← fieldName lib (.str key)
    let x ← value lib x
    changedFields (Reader.setItem done key x) rest

/-- `raw.get("changes")` -/
def changes (raw : PyJson) : Except AuthoringFault Fields :=
  match raw with
  | .obj items => do
    require (!items.isEmpty && items.length ≤ 32)
    changedFields lib [] items
  | _ => fail

/-- `raw.get("expected_modified")`: only an update of one named document expects one. -/
def expectedModified (raw : PyJson) (rows : ℤ) (names : Option (List PyStr)) :
    Except AuthoringFault PyJson :=
  match raw with
  | .null => .ok .null
  | raw => do
    let instant ← timestamp lib raw
    require (rows == 1 && (names.map List.length) == some 1)
    return .str instant

/-- `None`, or the names. -/
def namesJson : Option (List PyStr) → PyJson
  | none => .null
  | some names => .arr (names.map .str)

/-- The parts of a payload in normal form. -/
structure Payload where
  doctype : PyStr
  names : Option (List PyStr)
  filters : PyJson
  changes : Fields
  expected : PyJson
  rows : ℤ
  reason : PyStr

/-- `result` -/
def Payload.fields (payload : Payload) (dryRun : Bool) : Fields :=
  [(.ofString "contract_version", .str (.ofString "1.0")),
    (.ofString "doctype", .str payload.doctype),
    (.ofString "document_names", namesJson payload.names),
    (.ofString "filters", payload.filters),
    (.ofString "changes", .obj payload.changes),
    (.ofString "expected_modified", payload.expected),
    (.ofString "dry_run", .bool dryRun),
    (.ofString "maximum_rows", .int payload.rows),
    (.ofString "reason", .str payload.reason)]

/-- The parts of a payload, in the order of the checks. -/
def payloadParts (payload : Fields) (dryRun : Bool) : Except AuthoringFault Payload := do
  checkContract payload dryRun
  let rows ← maximumRows (field payload "maximum_rows")
  require (isSelection (field payload "document_names") != isSelection (field payload "filters"))
  let names ← documentNames lib (field payload "document_names")
  let filters ← filters lib (field payload "filters")
  let changes ← changes lib (field payload "changes")
  let expected ← expectedModified lib (field payload "expected_modified") rows names
  let doctype ← doctype lib (field payload "doctype")
  let reason ← trimmedText lib 500 (field payload "reason")
  return { doctype, names, filters, changes, expected, rows, reason }

variable (R : Runtime)

/-- The canonical text, where it can be encoded. -/
def encoded (value : Fields) : Except AuthoringFault Text :=
  match toFields? value with
  | some fields => .ok (R.dumps (.obj fields))
  | none => .error .unicodeEncodeError

/-- `normalize_data_update_payload` -/
def normalizePayload (raw : PyJson) (dryRun : Bool) : Except AuthoringFault Fields :=
  match raw with
  | .obj payload => do
    let parts ← payloadParts lib payload dryRun
    let text ← encoded R (parts.fields dryRun)
    require (utf8Length text ≤ 128 * 1024)
    return parts.fields dryRun
  | _ => fail

/-! ## Commands -/

def commandNames : List String := ["policy_id", "payload"]

/-- A command in normal form. -/
def commandFields (policy : PyStr) (payload : Fields) : Fields :=
  [(.ofString "policy_id", .str policy), (.ofString "payload", .obj payload)]

/-- `raw.get("policy_id")` -/
def policyId (raw : PyJson) : Except AuthoringFault PyStr :=
  match raw with
  | .str s => if s.fullmatch isPolicy then .ok s else failWith "invalid local policy id"
  | _ => failWith "invalid local policy id"

/-- `normalize_data_update_command` -/
def normalizeCommand (operation : String) (raw : PyJson) (dryRun : Bool) :
    Except AuthoringFault Fields :=
  match raw with
  | .obj command =>
    if operations.contains operation && sameKeys command commandNames then do
      let policy ← policyId (field command "policy_id")
      let payload ← normalizePayload lib R (field command "payload") dryRun
      return commandFields policy payload
    else failWith "unsupported data update operation"
  | _ => failWith "unsupported data update operation"

/-- `canonical_hash` -/
def canonicalHash (value : Fields) : Except AuthoringFault String := do
  let text ← encoded R value
  return R.sha256 text

/-- `{**payload, "dry_run": False}` -/
def applyPayload (payload : Fields) : Fields :=
  Reader.setItem payload (.ofString "dry_run") (.bool false)

/-- `{**command, "payload": {**command["payload"], "dry_run": False}}`, for a command whose
payload is an object. -/
def applyCommand (command : Fields) : Fields :=
  match field command "payload" with
  | .obj payload => Reader.setItem command (.ofString "payload") (.obj (applyPayload payload))
  | _ => command

end Library

/-- The exception a caller sees. -/
def raised : AuthoringFault → Exc
  | .contract message => .operationAuthoring message
  | .unicodeEncodeError => .python "UnicodeEncodeError"
  | .typeError => .python "TypeError"
  | .overflowError => .python "OverflowError"

/-- `data_update_authorization`, the validator of the authoring service for a preview or for its
promotion. -/
def validator (lib : TextLibrary) (R : Runtime) (preview : Bool) :
    OperationAuthoring.PayloadValidator := fun operation payload =>
  match normalizeCommand lib R operation (.obj (ofFields payload)) preview with
  | .ok command =>
    match toFields? command with
    | some normalizedPayload => .ok {
        normalizedPayload, siteRequired := true, destructive := false
        preOperationBackup := false, approvalRequired := !preview
        payloadContainsSiteIdentity := false, preApprovalPreview := preview }
    | none => .error (.python "UnicodeEncodeError")
  | .error fault => .error (raised fault)

end DataUpdateAuthoring

end FrappeController
