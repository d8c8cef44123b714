import FrappeController.JsonReader
import FrappeController.LifecycleAuthoring

/-!
# `api/s3_routes.py`: the objects an operation may read

An agent reads a backup through the controller. The bucket and the keys it may name are those of
the payload of its own operation: `_operation` computes the prefix of that payload, and `_scope`
holds the parameters of a request against it. The payload and the parameters are whatever
`json.loads` may return.
-/

namespace FrappeController

namespace PyJson

/-- The number a value counts as in a comparison. -/
def number? : PyJson → Option PyFloat
  | .bool b => some (.finite (if b then 1 else 0))
  | .int n => some (.finite n)
  | .float x => some x
  | _ => none

mutual

/-- Python's `==`. -/
def pyEq : PyJson → PyJson → Bool
  | .null, .null => true
  | .str a, .str b => a == b
  | .arr xs, .arr ys => pyEqItems xs ys
  | .obj xs, .obj ys => xs.length == ys.length && pyEqFields xs ys
  | x, y =>
    match number? x, number? y with
    | some .nan, _ => false
    | some a, some b => a == b
    | _, _ => false

def pyEqItems : List PyJson → List PyJson → Bool
  | [], [] => true
  | x :: xs, y :: ys => pyEq x y && pyEqItems xs ys
  | _, _ => false

def pyEqFields : Fields → Fields → Bool
  | [], _ => true
  | (key, x) :: xs, ys =>
    (match ys.lookup key with
      | some y => pyEq x y
      | none => false) && pyEqFields xs ys

end

/-- `bool(value)` -/
def isTrue : PyJson → Bool
  | .null => false
  | .bool b => b
  | .int n => n != 0
  | .float x => x != .finite 0
  | .str s => !s.isEmpty
  | .arr items => !items.isEmpty
  | .obj fields => !fields.isEmpty

end PyJson

namespace S3Routes

open PyJson

/-! ## Prefixes -/

/-- `_SAFE_SEGMENT` -/
def isSafeSegment : String → Bool :=
  let alphanumeric (c : Char) := Ingestion.isUpper c || Ingestion.isLower c || Ingestion.isDigit c
  Ingestion.identifier alphanumeric
    (fun c => alphanumeric c || c == '.' || c == '_' || c == '-') 255

/-- `ControllerRequestError(code)` -/
def refused (code : String) : Exc := .controllerRequest code

def slash : CodePoint := .ofChar '/'

/-- `value.strip("/")` -/
def stripSlashes (s : PyStr) : PyStr :=
  ((s.dropWhile (· == slash)).reverse.dropWhile (· == slash)).reverse

/-- `"/".join(parts)` -/
def joined (parts : List PyStr) : PyStr := [slash].intercalate parts

/-- `_normalize_prefix` -/
def normalizePrefix (value : PyJson) : Except Exc PyStr :=
  match value with
  | .null | .str [] => .ok []
  | .str s => do
    ensure (!s.hasChar '\\') (refused "s3_scope_invalid")
    let parts := (stripSlashes s).splitOn slash
    ensure (parts.all (PyStr.fullmatch isSafeSegment)) (refused "s3_scope_invalid")
    return joined parts
  | _ => .error (refused "s3_scope_invalid")

/-- The template of a payload. -/
def template (payload : Fields) : Except Exc PyStr :=
  match field payload "template_name" with
  | .str s =>
    if PyStr.fullmatch isSafeSegment s then .ok s else .error (refused "s3_operation_invalid")
  | _ => .error (refused "s3_operation_invalid")

/-- `"/".join(part for part in (parent, template) if part)`: the prefix of an operation. -/
def operationPrefix (payload : Fields) : Except Exc PyStr := do
  let template ← template payload
  let parent ← normalizePrefix (field payload "backup_prefix")
  return joined ([parent, template].filter fun part => !part.isEmpty)

/-! ## Operations -/

/-- `_RESTORE_OPERATIONS` -/
def restoreOperations : List String :=
  ["site.create", "site.create_from_backup", "site.restore", "site.reinstall"]

/-- The row of an operation whose agent executes it. -/
def ownedOperation (db : Database) (agentId operationId : String) :
    Except Exc ControllerOperation :=
  match db.operation? operationId with
  | none => .error (refused "s3_operation_not_owned")
  | some row => do
    ensure (row.serverAgent == agentId && restoreOperations.contains row.operationType)
      (refused "s3_operation_not_owned")
    ensure (row.state == .queued || row.state == .leased || row.state == .running)
      (refused "s3_operation_not_active")
    return row

/-- The payload of a row; only the errors of the decoder itself are caught. -/
def storedPayload (L : Reader) (text : Text) : Except Exc Fields :=
  match L.loads Reader.dict text with
  | .ok (.obj payload) => .ok payload
  | .ok _ | .error .decode => .error (refused "s3_operation_invalid")
  | .error .digits => .error (.python "ValueError")
  | .error .recursion => .error (.python "RecursionError")
  | .error (.hook e) => .error e
  | .error .fuel => .error (.python "fuel")

/-- `_operation`, for a peer that was authenticated as the agent: the payload and its prefix. -/
def operation (L : Reader) (db : Database) (agentId operationId : String) :
    Except Exc (Fields × PyStr) := do
  let row ← ownedOperation db agentId operationId
  let payload ← storedPayload L row.payloadJson
  let start ← operationPrefix payload
  return (payload, start)

/-! ## Scopes -/

/-- What `_scope` reads of `ControllerSettings`. -/
structure Settings where
  bucket : PyStr
  allowedBuckets : List PyStr
  allowedPrefixes : List PyStr

/-- `_configured_buckets` -/
def configuredBuckets (settings : Settings) : Except Exc (List PyStr) :=
  if settings.allowedBuckets = [] then .error (refused "controller_s3_not_configured")
  else .ok settings.allowedBuckets

/-- `payload.get("bucket_name") or settings.s3_bucket` -/
def requestedBucket (settings : Settings) (payload : Fields) : PyJson :=
  let own := field payload "bucket_name"
  if own.isTrue then own else .str settings.bucket

/-- The bucket a request names, `@controller-default` being the configured one. -/
def suppliedBucket (settings : Settings) (parameters : Fields) : PyJson :=
  match field parameters "Bucket" with
  | .str s => if s = .ofString "@controller-default" then .str settings.bucket else .str s
  | supplied => supplied

/-- The bucket, where it is the operation's and configured. -/
def scopeBucket (settings : Settings) (parameters payload : Fields) : Except Exc PyStr := do
  let supplied := suppliedBucket settings parameters
  ensure (pyEq supplied (requestedBucket settings payload)) (refused "s3_bucket_not_allowed")
  let buckets ← configuredBuckets settings
  match supplied with
  | .str s => if buckets.contains s then .ok s else .error (refused "s3_bucket_not_allowed")
  | _ => .error (refused "s3_bucket_not_allowed")

/-- `part in {"", ".", ".."}` -/
def isDotSegment (part : PyStr) : Bool :=
  part.isEmpty || part == .ofString "." || part == .ofString ".."

/-- `parameters.get("Key")`, where it lies under the prefix. -/
def scopeKey (start : PyStr) (key : PyJson) : Except Exc (Option PyStr) :=
  match key with
  | .null => .ok none
  | .str s =>
    if (start ++ [slash]).isPrefixOf s && !s.hasChar '\\' && !(s.splitOn slash).any isDotSegment then
      .ok (some s)
    else .error (refused "s3_key_not_allowed")
  | _ => .error (refused "s3_key_not_allowed")

/-- `parameters.get("Prefix")`, where it is the prefix. -/
def scopePrefix (start : PyStr) (requestPrefix : PyJson) : Except Exc (Option PyStr) :=
  match requestPrefix with
  | .null => .ok none
  | .str s =>
    if s = start ++ [slash] then .ok (some s) else .error (refused "s3_prefix_not_allowed")
  | _ => .error (refused "s3_prefix_not_allowed")

/-- What `_scope` returns. -/
structure Scope where
  bucket : PyStr
  key : Option PyStr
  requestPrefix : Option PyStr

/-- `_scope` -/
def scope (settings : Settings) (parameters payload : Fields) (start : PyStr) :
    Except Exc Scope := do
  let bucket ← scopeBucket settings parameters payload
  let parent ← normalizePrefix (field payload "backup_prefix")
  ensure (settings.allowedPrefixes.contains parent) (refused "s3_prefix_not_allowed")
  let key ← scopeKey start (field parameters "Key")
  let requestPrefix ← scopePrefix start (field parameters "Prefix")
  return { bucket, key, requestPrefix }

/-- The scope of a request for an operation with that payload. -/
def payloadScope (settings : Settings) (parameters payload : Fields) : Except Exc Scope := do
  let start ← operationPrefix payload
  scope settings parameters payload start

end S3Routes

end FrappeController
