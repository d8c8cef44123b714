import FrappeController.LifecycleAuthoringTheorems
import FrappeController.OperationAuthoringTheorems

/-!
# Lifecycle payloads and the authoring service

What `author` stores of a lifecycle payload, read back and normalized again, has the stored hash.
Which payloads it stores at all is decided by the names its own normalizer writes: a creation from
a backup always has `restore_encryption_key`, which `_has_sensitive_key` takes for a secret.
-/

namespace FrappeController
namespace LifecycleAuthoring

open PyJson OperationAuthoring Reader
open Transaction (bind_eq_ok)

variable {lib : StrLibrary} {R : Runtime} {L : Reader}

/-! ## Reading a stored payload -/

/-- The fields of a document without surrogates, as `json.loads` gives them back. -/
theorem scalar_field {fields : List (String × Json)} (h : Scalars (ofFields fields)) :
    ∀ f ∈ fields, isScalar (ofJson f.2) = true := by
  intro f hf
  rw [ofFields_eq_map] at h
  exact h (PyStr.ofString f.1, ofJson f.2) (List.mem_map_of_mem hf)

theorem sorted_of_scalar {value : Json} (h : isScalar (ofJson value) = true) :
    value.sorted = value := by
  cases value with
  | arr items => cases h
  | obj fields => cases h
  | _ => rfl

theorem readable_of_scalar {value : Json} (h : isScalar (ofJson value) = true)
    (hdigits : 10 ≤ L.intDigits) (depth : ℕ) : Readable R L value depth := by
  cases value with
  | int n =>
    have hsize : n.natAbs ≤ 2 ^ 31 := of_decide_eq_true h
    have hcount : intDigitCount n ≤ 10 :=
      (Nat.length_toDigits_le_iff (by omega) (by omega)).mpr (lt_of_le_of_lt hsize (by decide))
    show intDigitCount n ≤ L.intDigits
    omega
  | float x => cases h
  | arr items => cases h
  | obj fields => cases h
  | _ => trivial

theorem sortedFields_of_scalars {fields : List (String × Json)} (h : Scalars (ofFields fields)) :
    Json.sortedFields fields = fields := by
  rw [Json.sortedFields_eq_map]
  have hsame : ∀ f ∈ fields, (fun f : String × Json => (f.1, f.2.sorted)) f = id f := by
    intro f hf
    show (f.1, f.2.sorted) = f
    rw [sorted_of_scalar (scalar_field h f hf)]
  rw [List.map_congr_left hsame, List.map_id]

/-- The text of a normalized payload reads back as its fields in another order. -/
theorem loads_payload (hloads : R.loads = L.json?) (hdepth : 1 ≤ L.depth)
    (hdigits : 10 ≤ L.intDigits) {fields : List (String × Json)}
    (hscalars : Scalars (ofFields fields)) (hkeys : (Json.keys fields).Nodup) :
    R.loads (R.dumps (.obj fields)) = some (.obj (sortByKey fields)) := by
  have hreadable : Readable R L (.obj fields) L.depth := by
    refine ⟨hdepth, hkeys, (readableFields_iff R L).mpr fun f hf => ?_⟩
    exact readable_of_scalar (scalar_field hscalars f hf) hdigits _
  rw [hloads, json?_dumps hreadable, Json.sorted, sortedFields_of_scalars hscalars]

theorem keys_of_toFields {out : Fields} {fields : List (String × Json)}
    (h : toFields? out = some fields) (hnodup : (out.map Prod.fst).Nodup) :
    (Json.keys fields).Nodup := by
  rw [← ofFields_of_toFields? h, keys_ofFields] at hnodup
  exact hnodup.of_map _

theorem validator_eq_ok {operation : String} {payload : List (String × Json)}
    {authorization : PayloadAuthorization} :
    validator lib operation payload = .ok authorization ↔
      ∃ found, validate lib operation (.obj (ofFields payload)) = .ok found
        ∧ ∃ fields, toFields? found.normalizedPayload = some fields
          ∧ authorization = {
            normalizedPayload := fields, siteRequired := found.siteRequired
            destructive := found.destructive, preOperationBackup := found.preOperationBackup } := by
  unfold validator
  constructor
  · intro h
    split at h
    · rename_i found hfound
      split at h
      · rename_i fields hfields
        cases h
        exact ⟨found, hfound, fields, hfields, rfl⟩
      · cases h
    all_goals cases h
  · rintro ⟨found, hfound, fields, hfields, rfl⟩
    rw [hfound]
    dsimp only
    rw [hfields]

/-- The stored payload gives the authorization it was stored for. -/
theorem validator_reloaded (hnames : LegalNames lib) {operation : String}
    {payload : List (String × Json)} {authorization : PayloadAuthorization}
    (h : validator lib operation payload = .ok authorization) :
    validator lib operation (sortByKey authorization.normalizedPayload) = .ok authorization := by
  obtain ⟨found, hfound, fields, hfields, rfl⟩ := validator_eq_ok.mp h
  refine validator_eq_ok.mpr ⟨found, ?_, fields, hfields, rfl⟩
  apply validate_perm hnames hfound
  rw [← ofFields_of_toFields? hfields, ofFields_eq_map, ofFields_eq_map]
  exact (perm_sortByKey fields).map _

theorem loads_authorized (hloads : R.loads = L.json?) (hdepth : 1 ≤ L.depth)
    (hdigits : 10 ≤ L.intDigits) {operation : String} {payload : List (String × Json)}
    {authorization : PayloadAuthorization}
    (h : validator lib operation payload = .ok authorization) :
    R.loads (R.dumps (.obj authorization.normalizedPayload))
      = some (.obj (sortByKey authorization.normalizedPayload)) := by
  obtain ⟨found, hfound, fields, hfields, rfl⟩ := validator_eq_ok.mp h
  apply loads_payload hloads hdepth hdigits
  · show Scalars (ofFields fields)
    rw [ofFields_of_toFields? hfields]
    exact scalars_normalizedPayload hfound
  · exact keys_of_toFields hfields (nodup_normalizedPayload hfound)

/-! ## The authoring service -/

theorem canonicalPayload_eq_ok {value : List (String × Json)} {text : Text} {hash : String} :
    canonicalPayload R value = .ok (text, hash) ↔
      hasSensitiveKey R (.obj value) = false
        ∧ (validateJson R false false (.obj value)).isOk = true
        ∧ utf8Length (R.dumps (.obj value)) ≤ 256 * 1024
        ∧ text = R.dumps (.obj value) ∧ hash = R.sha256 (R.dumps (.obj value)) := by
  simp only [canonicalPayload, bind_eq_ok, ensure_eq_ok, Bool.not_eq_true', decide_eq_true_eq,
    exists_const, pure, Except.pure, Except.ok.injEq, Prod.mk.injEq]
  constructor
  · rintro ⟨hkeys, hvalid, hsize, rfl, rfl⟩
    exact ⟨hkeys, hvalid, hsize, rfl, rfl⟩
  · rintro ⟨hkeys, hvalid, hsize, rfl, rfl⟩
    exact ⟨hkeys, hvalid, hsize, rfl, rfl⟩

/-- What `author` stores is the canonical text of what the validator returned. -/
theorem authored_payload {validator : PayloadValidator} {request : OperationRequest}
    {actor : String} {db : Database} {result : AuthoredOperation}
    (h : authored R validator request actor db = .ok result) :
    result.operationType = request.operationType
      ∧ ∃ authorization, validator request.operationType request.payload = .ok authorization
        ∧ canonicalPayload R authorization.normalizedPayload
          = .ok (result.payloadJson, result.payloadHash) := by
  obtain ⟨-, -, h⟩ := bind_eq_ok.mp h
  obtain ⟨uuid, -, h⟩ := bind_eq_ok.mp h
  obtain ⟨-, -, h⟩ := bind_eq_ok.mp h
  obtain ⟨target, -, h⟩ := bind_eq_ok.mp h
  obtain ⟨-, -, h⟩ := bind_eq_ok.mp h
  obtain ⟨-, -, h⟩ := bind_eq_ok.mp h
  obtain ⟨authorization, hauthorization, h⟩ := bind_eq_ok.mp h
  obtain ⟨-, -, h⟩ := bind_eq_ok.mp h
  obtain ⟨policy, -, h⟩ := bind_eq_ok.mp h
  obtain ⟨⟨text, hash⟩, hpayload, h⟩ := bind_eq_ok.mp h
  obtain ⟨previewOf, -, h⟩ := bind_eq_ok.mp h
  cases h
  exact ⟨rfl, authorization, hauthorization, hpayload⟩

/-- A normalized payload normalizes to itself, and what is stored of it, authored again as
`retry_operation` does, is stored under the same hash. -/
theorem lifecycle_idempotent (hnames : LegalNames lib) :
    (∀ operation raw authorization, validate lib operation raw = .ok authorization →
      validate lib operation (.obj authorization.normalizedPayload) = .ok authorization)
    ∧ ∀ (R : Runtime) (L : Reader), R.loads = L.json? → 1 ≤ L.depth → 10 ≤ L.intDigits →
      ∀ request actor db result, authored R (validator lib) request actor db = .ok result →
        ∃ payload authorization, R.loads result.payloadJson = some (.obj payload)
          ∧ validator lib result.operationType request.payload = .ok authorization
          ∧ validator lib result.operationType payload = .ok authorization
          ∧ ∀ retry actor' db' result', retry.operationType = result.operationType →
            retry.payload = payload →
            authored R (validator lib) retry actor' db' = .ok result' →
            result'.payloadJson = result.payloadJson
              ∧ result'.payloadHash = result.payloadHash := by
  refine ⟨fun operation raw authorization h => validate_perm hnames h (List.Perm.refl _), ?_⟩
  intro R L hloads hdepth hdigits request actor db result hauthored
  obtain ⟨htype, authorization, hauthorization, hpayload⟩ := authored_payload hauthored
  obtain ⟨-, -, -, htext, hhash⟩ := canonicalPayload_eq_ok.mp hpayload
  rw [← htype] at hauthorization
  -- the stored payload is the normalized one, its keys sorted
  have hreloaded := validator_reloaded hnames hauthorization
  refine ⟨sortByKey authorization.normalizedPayload, authorization, ?_, hauthorization, hreloaded,
    ?_⟩
  · rw [htext]
    exact loads_authorized hloads hdepth hdigits hauthorization
  · intro retry actor' db' result' hretryType hretryPayload hretried
    obtain ⟨-, authorization', hauthorization', hpayload'⟩ := authored_payload hretried
    rw [hretryType, hretryPayload, hreloaded] at hauthorization'
    -- authored again it has the same authorization, so the same text and hash
    rw [← Except.ok.inj hauthorization'] at hpayload'
    obtain ⟨-, -, -, htext', hhash'⟩ := canonicalPayload_eq_ok.mp hpayload'
    rw [htext, hhash, htext', hhash']
    exact ⟨rfl, rfl⟩

/-! ## Which operations can be authored -/

/-- Case folding leaves lower-case ASCII names as they are. -/
def FoldsNames (R : Runtime) : Prop := ∀ name, isConfigKey name = true → R.casefold name = name

/-- The operations whose payload names a backup's encryption key. -/
def backupOperations : List String :=
  ["site.create", "site.create_from_backup", "site.restore", "site.reinstall"]

/-- `_has_sensitive_key` finds a marker in the name. -/
def isSensitiveName (name : String) : Bool :=
  OperationAuthoring.sensitiveMarkers.any fun marker => containsText marker (dashToUnderscore name)

theorem sensitive_normalizedNames : ∀ operation ∈ operations,
    (normalizedNames operation).any isSensitiveName = backupOperations.contains operation := by
  decide +kernel

theorem isConfigKey_normalizedNames : ∀ operation ∈ operations,
    ∀ name ∈ normalizedNames operation, isConfigKey name = true := by
  decide +kernel

theorem hasSensitiveKey_of_scalar {value : Json} (h : isScalar (ofJson value) = true) :
    hasSensitiveKey R value = false := by
  cases value with
  | arr items => cases h
  | obj fields => cases h
  | _ => rfl

theorem validateJson_of_scalar {value : Json} (h : isScalar (ofJson value) = true) :
    validateJson R false false value = .ok () := by
  cases value with
  | float x => cases h
  | arr items => cases h
  | obj fields => cases h
  | _ => rfl

theorem hasSensitiveField_of_scalars {fields : List (String × Json)}
    (h : ∀ f ∈ fields, isScalar (ofJson f.2) = true) :
    hasSensitiveField R fields = fields.any fun f => isSensitiveName (R.casefold f.1) := by
  induction fields with
  | nil => rfl
  | cons f rest ih =>
    have hvalue := hasSensitiveKey_of_scalar (R := R) (h f List.mem_cons_self)
    have hrest := ih fun g hg => h g (List.mem_cons_of_mem f hg)
    rw [hasSensitiveField, hvalue, hrest, Bool.or_false, List.any_cons]
    rfl

theorem names_of_normalized {operation : String} {raw : PyJson} {authorization : Authorization}
    (h : validate lib operation raw = .ok authorization) {fields : List (String × Json)}
    (hfields : toFields? authorization.normalizedPayload = some fields) :
    operation ∈ operations ∧ Json.keys fields = normalizedNames operation := by
  obtain ⟨payload, -, hoperation, hnormalized, -⟩ := validate_eq_ok.mp h
  have hnames : authorization.normalizedPayload.map Prod.fst
      = (normalizedNames operation).map PyStr.ofString := normalize_names hnormalized
  rw [← ofFields_of_toFields? hfields, keys_ofFields] at hnames
  exact ⟨hoperation, List.map_injective_iff.mpr PyStr.ofString_injective hnames⟩

/-- A normalized payload that is not too long is authored exactly where its operation does not
restore a backup. -/
theorem lifecycle_authorable_iff (hfolds : FoldsNames R) {operation : String} {raw : PyJson}
    {authorization : Authorization} (h : validate lib operation raw = .ok authorization)
    {fields : List (String × Json)}
    (hfields : toFields? authorization.normalizedPayload = some fields)
    (hsize : utf8Length (R.dumps (.obj fields)) ≤ 256 * 1024) :
    (canonicalPayload R fields).isOk = true ↔ operation ∉ backupOperations := by
  obtain ⟨hoperation, hkeys⟩ := names_of_normalized h hfields
  have hscalars : ∀ f ∈ fields, isScalar (ofJson f.2) = true := by
    apply scalar_field
    rw [ofFields_of_toFields? hfields]
    exact scalars_normalizedPayload h
  -- scalars are valid JSON to the authoring, whatever their fields are called
  have hvalid : (validateJson R false false (.obj fields)).isOk = true := by
    have hall : validateFields R false false fields = .ok () :=
      validateFields_eq_ok.mpr fun f hf => validateJson_of_scalar (hscalars f hf)
    rw [validateJson, hall]
    rfl
  -- so the names decide, and those of a normalized payload are those of its operation
  have hsensitive : hasSensitiveKey R (.obj fields) = backupOperations.contains operation := by
    have hfolded : (fields.any fun f => isSensitiveName (R.casefold f.1))
        = (Json.keys fields).any fun name => isSensitiveName (R.casefold name) := by
      rw [Json.keys, List.any_map]
      rfl
    have hplain : ((normalizedNames operation).any fun name => isSensitiveName (R.casefold name))
        = (normalizedNames operation).any isSensitiveName := by
      rw [Bool.eq_iff_iff, List.any_eq_true, List.any_eq_true]
      refine exists_congr fun name => and_congr_right fun hname => ?_
      rw [hfolds name (isConfigKey_normalizedNames operation hoperation name hname)]
    rw [hasSensitiveKey, hasSensitiveField_of_scalars hscalars, hfolded, hkeys, hplain,
      sensitive_normalizedNames operation hoperation]
  constructor
  · intro hok
    obtain ⟨⟨text, hash⟩, hpayload⟩ := Transaction.exists_eq_ok_of_isOk hok
    obtain ⟨hclean, -⟩ := canonicalPayload_eq_ok.mp hpayload
    rw [hsensitive] at hclean
    intro hmem
    rw [List.contains_iff_mem.mpr hmem] at hclean
    cases hclean
  · intro hnot
    have hclean : hasSensitiveKey R (.obj fields) = false := by
      rw [hsensitive]
      simpa using hnot
    rw [canonicalPayload_eq_ok.mpr ⟨hclean, hvalid, hsize, rfl, rfl⟩]
    rfl

/-! ## Samples -/

namespace Sample

/-- The codecs on lower-case ASCII. -/
def codecs : StrLibrary where
  lower s := s
  casefold s := s
  idna s := some s

theorem legalNames : LegalNames codecs := ⟨fun _ _ => rfl, fun _ _ => rfl⟩

def runtime : Runtime where
  sha256 text := String.ofList text
  loads _ := none
  unread _ := .decode
  uuid text := some text
  uuid5 _ name := name
  casefold text := text
  lower text := text
  fromisoformat _ := .invalid
  floatRepr _ := "0.0"

/-- A deletion that leaves its defaults out and writes its domain with a dot. -/
def deletion : PyJson :=
  ofJson (.obj [("domain", .str "shop.example.com."), ("confirmation", .str "shop.example.com"),
    ("pre_operation_backup", .bool true)])

def deletionFields : List (String × Json) :=
  [("domain", .str "shop.example.com"), ("execution_timeout_seconds", .int 3600),
    ("expected_inventory_digest", .null), ("quarantine_days", .int 7), ("purge", .bool false),
    ("confirmation", .str "shop.example.com"), ("pre_operation_backup", .bool true)]

def deletionAuthorization : Authorization where
  normalizedPayload := ofFields deletionFields
  siteRequired := true
  destructive := true
  preOperationBackup := true

theorem deletion_accepted :
    validate codecs "site.delete" deletion = .ok deletionAuthorization := by
  with_unfolding_all rfl

/-- A creation from a backup with the defaults. -/
def creation : PyJson :=
  ofJson (.obj [("domain", .str "shop.example.com"), ("template_name", .str "base")])

def creationFields : List (String × Json) :=
  [("domain", .str "shop.example.com"), ("execution_timeout_seconds", .int 3600),
    ("expected_inventory_digest", .null), ("template_name", .str "base"), ("bucket_name", .null),
    ("backup_prefix", .null), ("restore_public_files", .bool false),
    ("restore_private_files", .bool false), ("restore_encryption_key", .bool false)]

def creationAuthorization : Authorization where
  normalizedPayload := ofFields creationFields
  siteRequired := false
  destructive := false
  preOperationBackup := false

theorem creation_accepted :
    validate codecs "site.create" creation = .ok creationAuthorization := by
  with_unfolding_all rfl

end Sample

/-- A deletion normalizes to itself. -/
theorem lifecycle_idempotent_sample :
    validate Sample.codecs "site.delete" (.obj Sample.deletionAuthorization.normalizedPayload)
      = .ok Sample.deletionAuthorization :=
  (lifecycle_idempotent Sample.legalNames).1 "site.delete" Sample.deletion
    Sample.deletionAuthorization Sample.deletion_accepted

/-- A deletion is authored. -/
theorem lifecycle_authorable_iff_sample :
    (canonicalPayload Sample.runtime Sample.deletionFields).isOk = true
      ↔ "site.delete" ∉ backupOperations :=
  lifecycle_authorable_iff (R := Sample.runtime) (fun _ _ => rfl) Sample.deletion_accepted
    (toFields?_ofFields Sample.deletionFields) (by decide +kernel)

/-- A creation from a backup is accepted by its own contract and refused by the authoring step. -/
theorem backup_creation_refused :
    validate Sample.codecs "site.create" Sample.creation = .ok Sample.creationAuthorization
      ∧ toFields? Sample.creationAuthorization.normalizedPayload = some Sample.creationFields
      ∧ utf8Length (Sample.runtime.dumps (.obj Sample.creationFields)) ≤ 256 * 1024
      ∧ canonicalPayload Sample.runtime Sample.creationFields
        = .error (refused "operation payload contains a sensitive field") := by
  refine ⟨Sample.creation_accepted, toFields?_ofFields Sample.creationFields, by decide +kernel, ?_⟩
  have hsensitive : hasSensitiveKey Sample.runtime (.obj Sample.creationFields) = true := by
    decide +kernel
  rw [canonicalPayload, hsensitive]
  rfl

end LifecycleAuthoring

end FrappeController
