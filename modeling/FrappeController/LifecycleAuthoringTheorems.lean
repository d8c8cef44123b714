import FrappeController.LifecycleAuthoring
import FrappeController.JsonRoundTrip

/-!
# Normalized lifecycle payloads are fixed points

Each field check, given the value it returned, returns it again (`*_stable`). The normalizer reads
its payload by name only, so it gives the same authorization on every document with the fields it
returned, in any order: on its own result and on what is stored of it.
-/

namespace FrappeController
namespace LifecycleAuthoring

open PyJson
open Transaction (bind_eq_ok)

/-- A check passes exactly when its condition holds. -/
theorem require_eq_ok {condition : Bool} {u : Unit} :
    require condition = .ok u ↔ condition = true := by
  cases condition <;> simp [require, fail]

/-- The codecs leave a legal lower-case name as it is. -/
structure LegalNames (lib : StrLibrary) : Prop where
  lower : ∀ name, Inventory.isDomain name = true → lib.lower (.ofString name) = .ofString name
  idna : ∀ name, Inventory.isDomain name = true → lib.idna (.ofString name) = some (.ofString name)

variable {lib : StrLibrary}

/-! ## Fields -/

/-- The document has the fields, whatever else it has. -/
def Agrees (payload out : Fields) : Prop := ∀ f ∈ out, payload.lookup f.1 = some f.2

/-- A payload agrees with two parts of a result when it agrees with both together. -/
theorem Agrees.append {payload out out' : Fields} (h : Agrees payload (out ++ out')) :
    Agrees payload out ∧ Agrees payload out' :=
  ⟨fun f hf => h f (List.mem_append_left _ hf), fun f hf => h f (List.mem_append_right _ hf)⟩

/-- A payload that agrees with a result holds each of its fields. -/
theorem Agrees.field? {payload out : Fields} (h : Agrees payload out) {name : String}
    {value : PyJson} (hmem : (PyStr.ofString name, value) ∈ out) :
    field? payload name = some value := h _ hmem

/-- `get` reads the field of the result, so no default comes in. -/
theorem Agrees.field {payload out : Fields} (h : Agrees payload out) {name : String}
    {value : PyJson} (hmem : (PyStr.ofString name, value) ∈ out) : field payload name = value := by
  rw [PyJson.field, h.field? hmem, Option.getD_some]

/-- A legal name does not end in a dot. -/
theorem getLast?_domain {name : String} (h : Inventory.isDomain name = true) :
    name.toList.getLast? ≠ some '.' := by
  intro hdot
  obtain ⟨stem, hstem⟩ := List.getLast?_eq_some_iff.mp hdot
  simp only [Inventory.isDomain, Bool.and_eq_true, decide_eq_true_eq] at h
  have hlabels := h.2
  rw [hstem, List.splitOn_append_cons_self, List.splitOn_nil, List.all_append,
    Bool.and_eq_true] at hlabels
  exact absurd hlabels.2 (by decide)

/-- A domain ends in no dot, so nothing is stripped from it. -/
theorem rstrip_domain {name : String} (h : Inventory.isDomain name = true) :
    (PyStr.ofString name).rstrip '.' = PyStr.ofString name := by
  have hlast := getLast?_domain h
  have hpoint : ((PyStr.ofString name).reverse.dropWhile (· == CodePoint.ofChar '.'))
      = (PyStr.ofString name).reverse := by
    rw [PyStr.ofString, PyStr.ofText, ← List.map_reverse]
    cases hrev : name.toList.reverse with
    | nil => rfl
    | cons c rest =>
      have hc : c ≠ '.' := by
        intro hdot
        apply hlast
        rw [← List.head?_reverse, hrev, hdot]
        rfl
      have hne : (CodePoint.ofChar c == CodePoint.ofChar '.') = false :=
        beq_false_of_ne fun heq => hc (CodePoint.ofChar_injective heq)
      rw [List.map_cons, List.dropWhile_cons, hne, if_neg Bool.false_ne_true]
  rw [PyStr.rstrip, hpoint, List.reverse_reverse]

/-- An accepted domain keeps the pattern of the inventory. -/
theorem isDomain_of_domain {value : PyJson} {name : String} (h : domain lib value = .ok name) :
    Inventory.isDomain name = true := by
  unfold domain at h
  split at h
  · split at h
    · split at h
      · rename_i hdomain
        cases h
        exact hdomain
      · cases h
    · cases h
  · cases h

/-- A normalized domain normalizes to itself, provided `idna` keeps legal names. -/
theorem domain_stable (hnames : LegalNames lib) {value : PyJson} {name : String}
    (h : domain lib value = .ok name) : domain lib (.str (.ofString name)) = .ok name := by
  have hlegal := isDomain_of_domain h
  rw [domain, rstrip_domain hlegal, hnames.lower name hlegal, hnames.idna name hlegal, Option.bind_some,
    PyStr.toString?_ofString]
  exact if_pos hlegal

/-- A timeout within its bounds is accepted again, given now where it was the default before. -/
theorem timeout_stable {payload payload' : Fields} {n : ℤ} (h : timeout payload = .ok n)
    (hfield : field? payload' "execution_timeout_seconds" = some (.int n)) :
    timeout payload' = .ok n := by
  have hrange : 60 ≤ n ∧ n ≤ 86400 := by
    unfold timeout at h
    split at h
    · cases h
      decide
    · split at h
      · rename_i hrange
        cases h
        exact hrange
      · cases h
    · cases h
  rw [timeout, hfield]
  exact if_pos hrange

/-- An accepted digest is accepted again, `None` included. -/
theorem inventoryDigest_stable {payload payload' : Fields} {digest : PyJson}
    (h : inventoryDigest payload = .ok digest)
    (hfield : field payload' "expected_inventory_digest" = digest) :
    inventoryDigest payload' = .ok digest := by
  unfold inventoryDigest at h
  split at h
  · cases h
    rw [inventoryDigest, hfield]
  · split at h
    · rename_i hmatch
      cases h
      rw [inventoryDigest, hfield]
      exact if_pos hmatch
    · cases h
  · cases h

/-- An accepted text is accepted again with the same bounds. -/
theorem trimmedText_stable {value out : PyJson} {minimum maximum : ℕ}
    (h : trimmedText value minimum maximum = .ok out) :
    trimmedText out minimum maximum = .ok out := by
  unfold trimmedText at h
  split at h
  · split at h
    · rename_i hvalid
      cases h
      exact if_pos hvalid
    · cases h
  · cases h

/-- Nothing is trimmed: a text is accepted only as it is. -/
theorem trimmedText_eq_self {value out : PyJson} {minimum maximum : ℕ}
    (h : trimmedText value minimum maximum = .ok out) : out = value := by
  unfold trimmedText at h
  split at h
  · split at h
    · exact (Except.ok.inj h).symm
    · cases h
  · cases h

/-- An accepted optional text is the one given. -/
theorem optionalText_eq_self {value out : PyJson} {minimum maximum : ℕ}
    (h : optionalText value minimum maximum = .ok out) : out = value := by
  unfold optionalText at h
  split at h
  · exact (Except.ok.inj h).symm
  · exact trimmedText_eq_self h

/-- An accepted optional text is accepted again. -/
theorem optionalText_stable {value out : PyJson} {minimum maximum : ℕ}
    (h : optionalText value minimum maximum = .ok out) :
    optionalText out minimum maximum = .ok out := by
  unfold optionalText at h
  split at h
  · cases h
    rfl
  · have hstable := trimmedText_stable h
    unfold optionalText
    split
    · cases hstable
    · exact hstable

/-- An accepted flag is accepted again, given now where it was the default before. -/
theorem flag_stable {payload payload' : Fields} {name : String} {default : Bool} {out : PyJson}
    (h : flag payload name default = .ok out) (hfield : field? payload' name = some out) :
    flag payload' name default = .ok out := by
  unfold flag at h
  rw [flag, hfield]
  split at h
  · cases h
    rfl
  · cases h
    rfl
  · cases h

/-- A quarantine within its bounds is accepted again. -/
theorem quarantineDays_stable {payload payload' : Fields} {n : ℤ}
    (h : quarantineDays payload = .ok n)
    (hfield : field? payload' "quarantine_days" = some (.int n)) :
    quarantineDays payload' = .ok n := by
  have hrange : 1 ≤ n ∧ n ≤ 90 := by
    unfold quarantineDays at h
    split at h
    · cases h
      decide
    · split at h
      · rename_i hrange
        cases h
        exact hrange
      · cases h
    · cases h
  rw [quarantineDays, hfield]
  exact if_pos hrange

/-- An accepted configuration key is accepted again. -/
theorem configKey_stable {payload payload' : Fields} {out : PyJson}
    (h : configKey lib payload = .ok out) (hfield : field payload' "key" = out) :
    configKey lib payload' = .ok out := by
  unfold configKey at h
  split at h
  · split at h
    · rename_i hvalid
      cases h
      rw [configKey, hfield]
      exact if_pos hvalid
    · cases h
  · cases h

/-- A configuration text is accepted only as it is. -/
theorem configText_eq_ok {s : PyStr} {out : PyJson} (h : configText s = .ok out) : out = .str s := by
  unfold configText at h
  split at h
  · cases h
  · split at h
    · cases h
    · split at h
      · cases h
        rfl
      · cases h

/-- An accepted configuration value is accepted again. -/
theorem configValue_stable {payload payload' : Fields} {out : PyJson}
    (h : configValue payload = .ok out) (hfield : field payload' "value" = out) :
    configValue payload' = .ok out := by
  unfold configValue at h
  split at h
  · cases h
    rw [configValue, hfield]
  · split at h
    · rename_i hrange
      cases h
      rw [configValue, hfield]
      exact if_pos hrange
    · cases h
  · have hout := configText_eq_ok h
    rw [configValue, hfield, hout]
    rw [hout] at h
    exact h
  · cases h

/-! ## Families -/

/-- The common fields of a result normalize to themselves. -/
theorem base_stable (hnames : LegalNames lib) {payload payload' out : Fields}
    (h : base lib payload = .ok out) (hagrees : Agrees payload' out) :
    base lib payload' = .ok out := by
  simp only [base, bind_eq_ok] at h ⊢
  obtain ⟨n, hn, digest, hdigest, name, hname, h⟩ := h
  cases h
  have hdomain : field payload' "domain" = .str (.ofString name) := hagrees.field (by simp)
  refine ⟨n, timeout_stable hn (hagrees.field? (by simp)), digest,
    inventoryDigest_stable hdigest (hagrees.field (by simp)), name, ?_, rfl⟩
  rw [hdomain]
  exact domain_stable hnames hname

/-- The fields of a restore normalize to themselves. -/
theorem backupFields_stable {payload payload' out : Fields} (h : backupFields payload = .ok out)
    (hagrees : Agrees payload' out) : backupFields payload' = .ok out := by
  simp only [backupFields, bind_eq_ok] at h ⊢
  obtain ⟨template, htemplate, bucket, hbucket, start, hstart, publicFiles, hpublic, privateFiles,
    hprivate, encryptionKey, hkey, h⟩ := h
  cases h
  have hfirst : field payload' "template_name" = template := hagrees.field (by simp)
  have hsecond : field payload' "bucket_name" = bucket := hagrees.field (by simp)
  have hthird : field payload' "backup_prefix" = start := hagrees.field (by simp)
  refine ⟨template, ?_, bucket, ?_, start, ?_, publicFiles,
    flag_stable hpublic (hagrees.field? (by simp)), privateFiles,
    flag_stable hprivate (hagrees.field? (by simp)), encryptionKey,
    flag_stable hkey (hagrees.field? (by simp)), rfl⟩
  · rw [hfirst]
    exact trimmedText_stable htemplate
  · rw [hsecond]
    exact optionalText_stable hbucket
  · rw [hthird]
    exact optionalText_stable hstart

/-- The fields of a backup normalize to themselves. -/
theorem siteBackupFields_stable {payload payload' out : Fields}
    (h : siteBackupFields payload = .ok out) (hagrees : Agrees payload' out) :
    siteBackupFields payload' = .ok out := by
  simp only [siteBackupFields, bind_eq_ok] at h ⊢
  obtain ⟨withFiles, hfiles, h⟩ := h
  cases h
  exact ⟨withFiles, flag_stable hfiles (hagrees.field? (by simp)), rfl⟩

/-- The fields of a deletion normalize to themselves. -/
theorem deleteFields_stable {payload payload' out : Fields} (h : deleteFields payload = .ok out)
    (hagrees : Agrees payload' out) : deleteFields payload' = .ok out := by
  simp only [deleteFields, bind_eq_ok] at h ⊢
  obtain ⟨days, hdays, -, -, h⟩ := h
  cases h
  have hpurge : field? payload' "purge" = some (.bool false) := hagrees.field? (by simp)
  refine ⟨days, quarantineDays_stable hdays (hagrees.field? (by simp)), (), ?_, rfl⟩
  rw [checkPurge, hpurge]

/-- The fields of a configuration update normalize to themselves. -/
theorem configFields_stable {payload payload' out : Fields} (h : configFields lib payload = .ok out)
    (hagrees : Agrees payload' out) : configFields lib payload' = .ok out := by
  simp only [configFields, bind_eq_ok] at h ⊢
  obtain ⟨key, hkey, value, hvalue, reason, hreason, h⟩ := h
  cases h
  have hfield : field payload' "reason" = reason := hagrees.field (by simp)
  refine ⟨key, configKey_stable hkey (hagrees.field (by simp)), value,
    configValue_stable hvalue (hagrees.field (by simp)), reason, ?_, rfl⟩
  rw [hfield]
  exact trimmedText_stable hreason

/-- The fields of every family normalize to themselves. -/
theorem extraFields_stable {operation : String} {payload payload' out : Fields}
    (h : extraFields lib operation payload = .ok out) (hagrees : Agrees payload' out) :
    extraFields lib operation payload' = .ok out := by
  unfold extraFields at h ⊢
  split at h
  · rename_i hbackup
    rw [if_pos hbackup]
    exact backupFields_stable h hagrees
  · rename_i hbackup
    rw [if_neg hbackup]
    split at h
    · rename_i hsite
      rw [if_pos hsite]
      exact siteBackupFields_stable h hagrees
    · rename_i hsite
      rw [if_neg hsite]
      split at h
      · rename_i hdelete
        rw [if_pos hdelete]
        exact deleteFields_stable h hagrees
      · rename_i hdelete
        rw [if_neg hdelete]
        split at h
        · rename_i hconfig
          rw [if_pos hconfig]
          exact configFields_stable h hagrees
        · rename_i hconfig
          rw [if_neg hconfig]
          exact h

/-- The confirmation is a normalized domain, so it confirms the same domain again. -/
theorem confirmationFields_stable (hnames : LegalNames lib) {operation : String}
    {payload payload' normalized out : Fields}
    (h : confirmationFields lib operation payload normalized = .ok out)
    (hagrees : Agrees payload' out) :
    confirmationFields lib operation payload' normalized = .ok out := by
  unfold confirmationFields at h ⊢
  split at h
  · rename_i hdestructive
    rw [if_pos hdestructive]
    obtain ⟨name, hname, h⟩ := bind_eq_ok.mp h
    split at h
    · rename_i domain hdomain hbackup
      split at h
      · rename_i hsame
        cases h
        have hconfirmation : field payload' "confirmation" = .str (.ofString name) :=
          hagrees.field (by simp)
        have hbacked : field payload' "pre_operation_backup" = .bool true :=
          hagrees.field (by simp)
        rw [hconfirmation, domain_stable hnames hname, hbacked, hdomain]
        exact if_pos hsame
      · cases h
    · cases h
  · rename_i hdestructive
    rw [if_neg hdestructive]
    exact h

/-! ## The names of the fields -/

/-- The fields of a family beside the common ones, in the order the normalizer writes them. -/
def familyNames (operation : String) : List String :=
  if createBackup.contains operation || ["site.restore", "site.reinstall"].contains operation then
    backupNames
  else if operation = "site.backup" then ["with_files"]
  else if operation = "site.delete" then ["quarantine_days", "purge"]
  else if operation = "site.config.update" then ["key", "value", "reason"]
  else []

def confirmationNames (operation : String) : List String :=
  if destructiveOperations.contains operation then ["confirmation", "pre_operation_backup"] else []

/-- The names of a normalized payload. -/
def normalizedNames (operation : String) : List String :=
  common ++ familyNames operation ++ confirmationNames operation

/-- The names a document has. -/
def HasNames (out : Fields) (names : List String) : Prop :=
  out.map Prod.fst = names.map PyStr.ofString

/-- The common part has the common names. -/
theorem base_names {payload out : Fields} (h : base lib payload = .ok out) :
    HasNames out common := by
  simp only [base, bind_eq_ok] at h
  obtain ⟨n, -, digest, -, name, -, h⟩ := h
  cases h
  rfl

/-- The part of a family has the names of the family. -/
theorem extraFields_names {operation : String} {payload out : Fields}
    (h : extraFields lib operation payload = .ok out) : HasNames out (familyNames operation) := by
  unfold extraFields at h
  unfold familyNames
  -- the families in the order of the code
  split at h
  · rename_i hbackup
    rw [if_pos hbackup]
    simp only [backupFields, bind_eq_ok] at h
    obtain ⟨template, -, bucket, -, start, -, publicFiles, -, privateFiles, -, encryptionKey, -,
      h⟩ := h
    cases h
    rfl
  · rename_i hbackup
    rw [if_neg hbackup]
    split at h
    · rename_i hsite
      rw [if_pos hsite]
      simp only [siteBackupFields, bind_eq_ok] at h
      obtain ⟨withFiles, -, h⟩ := h
      cases h
      rfl
    · rename_i hsite
      rw [if_neg hsite]
      split at h
      · rename_i hdelete
        rw [if_pos hdelete]
        simp only [deleteFields, bind_eq_ok] at h
        obtain ⟨days, -, -, -, h⟩ := h
        cases h
        rfl
      · rename_i hdelete
        rw [if_neg hdelete]
        split at h
        · rename_i hconfig
          rw [if_pos hconfig]
          simp only [configFields, bind_eq_ok] at h
          obtain ⟨key, -, value, -, reason, -, h⟩ := h
          cases h
          rfl
        · rename_i hconfig
          rw [if_neg hconfig]
          cases h
          rfl

/-- The confirmation part has its two names, for destructive operations only. -/
theorem confirmationFields_names {operation : String} {payload normalized out : Fields}
    (h : confirmationFields lib operation payload normalized = .ok out) :
    HasNames out (confirmationNames operation) := by
  unfold confirmationFields at h
  unfold confirmationNames
  split at h
  · rename_i hdestructive
    rw [if_pos hdestructive]
    obtain ⟨name, -, h⟩ := bind_eq_ok.mp h
    split at h
    · split at h
      · cases h
        rfl
      · cases h
    · cases h
  · rename_i hdestructive
    rw [if_neg hdestructive]
    cases h
    rfl

/-- A result has exactly the names of its operation, in their order. -/
theorem normalize_names {operation : String} {payload out : Fields}
    (h : normalize lib operation payload = .ok out) :
    HasNames out (normalizedNames operation) := by
  simp only [normalize, bind_eq_ok] at h
  obtain ⟨-, -, baseOut, hbase, extra, hextra, confirmation, hconfirmation, h⟩ := h
  cases h
  unfold HasNames normalizedNames
  rw [List.map_append, List.map_append, List.map_append, List.map_append, base_names hbase,
    extraFields_names hextra, confirmationFields_names hconfirmation]

/-- No operation names a field twice. -/
theorem nodup_normalizedNames : ∀ operation ∈ operations, (normalizedNames operation).Nodup := by
  decide

/-- The normalizer writes no field its own family does not allow. -/
theorem normalizedNames_allowed : ∀ operation ∈ operations,
    ∀ name ∈ normalizedNames operation, name ∈ common ++ extraNames operation := by
  decide

/-! ## The normalizer -/

/-- The names are allowed when each field has one of them. -/
theorem keysWithin_iff {fields : Fields} {allowed : List String} :
    keysWithin fields allowed = true ↔
      ∀ f ∈ fields, ∃ name ∈ allowed, PyStr.ofString name = f.1 := by
  simp [keysWithin]

/-- On a document with the fields it returned and no others, it returns them again. -/
theorem normalize_stable (hnames : LegalNames lib) {operation : String}
    (hoperation : operation ∈ operations) {payload payload' out : Fields}
    (h : normalize lib operation payload = .ok out) (hagrees : Agrees payload' out)
    (hkeys : ∀ f ∈ payload', f.1 ∈ out.map Prod.fst) :
    normalize lib operation payload' = .ok out := by
  have hnamed := normalize_names h
  have hchecked : checkNames payload' (common ++ extraNames operation) = .ok () := by
    have hdomain : (field? payload' "domain").isSome = true := by
      have hmem : PyStr.ofString "domain" ∈ out.map Prod.fst := by
        rw [show out.map Prod.fst = _ from hnamed]
        exact List.mem_map_of_mem (by simp [normalizedNames, common])
      obtain ⟨f, hf, hname⟩ := List.mem_map.mp hmem
      have hlookup := hagrees f hf
      rw [hname] at hlookup
      rw [field?, hlookup]
      rfl
    have hwithin : keysWithin payload' (common ++ extraNames operation) = true := by
      rw [keysWithin_iff]
      intro f hf
      have hmem := hkeys f hf
      rw [show out.map Prod.fst = _ from hnamed] at hmem
      obtain ⟨name, hname, heq⟩ := List.mem_map.mp hmem
      exact ⟨name, normalizedNames_allowed operation hoperation name hname, heq⟩
    rw [checkNames, require_eq_ok, hwithin, hdomain]
    rfl
  simp only [normalize, bind_eq_ok] at h ⊢
  obtain ⟨-, -, baseOut, hbase, extra, hextra, confirmation, hconfirmation, h⟩ := h
  cases h
  obtain ⟨hfirst, hlast⟩ := hagrees.append
  obtain ⟨hbaseAgrees, hextraAgrees⟩ := hfirst.append
  exact ⟨(), hchecked, baseOut, base_stable hnames hbase hbaseAgrees, extra,
    extraFields_stable hextra hextraAgrees, confirmation,
    confirmationFields_stable hnames hconfirmation hlast, rfl⟩

/-- A payload is authorized exactly as an object of a known operation that normalizes; the flags of
the authorization follow from the operation and the result. -/
theorem validate_eq_ok {operation : String} {raw : PyJson} {authorization : Authorization} :
    validate lib operation raw = .ok authorization ↔
      ∃ payload, raw = .obj payload ∧ operation ∈ operations
        ∧ normalize lib operation payload = .ok authorization.normalizedPayload
        ∧ authorization.siteRequired =
          !(["site.create", "site.create_blank", "site.create_from_backup"].contains operation)
        ∧ authorization.destructive = destructiveOperations.contains operation
        ∧ authorization.preOperationBackup = backedUp authorization.normalizedPayload := by
  constructor
  · intro h
    unfold validate at h
    split at h
    · rename_i payload
      split at h
      · rename_i hoperation
        obtain ⟨normalized, hnormalized, h⟩ := bind_eq_ok.mp h
        cases h
        exact ⟨payload, rfl, List.contains_iff_mem.mp hoperation, hnormalized, rfl, rfl, rfl⟩
      · cases h
    · cases h
  · rintro ⟨payload, rfl, hoperation, hnormalized, hsite, hdestructive, hbackup⟩
    have hcontains : operations.contains operation = true := List.contains_iff_mem.mpr hoperation
    obtain ⟨normalizedPayload, siteRequired, destructive, preOperationBackup⟩ := authorization
    dsimp only at hnormalized hsite hdestructive hbackup
    rw [validate, hcontains, hnormalized, hsite, hdestructive, hbackup]
    rfl

/-- A result is authorized again, unchanged, from any payload with its fields and no others. -/
theorem validate_stable (hnames : LegalNames lib) {operation : String} {raw : PyJson}
    {authorization : Authorization} (h : validate lib operation raw = .ok authorization)
    {payload' : Fields} (hagrees : Agrees payload' authorization.normalizedPayload)
    (hkeys : ∀ f ∈ payload', f.1 ∈ authorization.normalizedPayload.map Prod.fst) :
    validate lib operation (.obj payload') = .ok authorization := by
  obtain ⟨payload, rfl, hoperation, hnormalized, hflags⟩ := validate_eq_ok.mp h
  exact validate_eq_ok.mpr ⟨payload', rfl, hoperation,
    normalize_stable hnames hoperation hnormalized hagrees hkeys, hflags⟩

/-- A document with distinct names agrees with any rearrangement of it. -/
theorem agrees_of_perm {payload out : Fields} (hperm : payload.Perm out)
    (hnodup : (out.map Prod.fst).Nodup) : Agrees payload out := by
  intro f hf
  have hmem : f ∈ payload := hperm.mem_iff.mpr hf
  have hpayload : (payload.map Prod.fst).Nodup := (hperm.map Prod.fst).nodup_iff.mpr hnodup
  clear hperm hnodup hf
  induction payload with
  | nil => cases hmem
  | cons g rest ih =>
    rw [List.map_cons, List.nodup_cons] at hpayload
    rcases List.mem_cons.mp hmem with rfl | hrest
    · rw [List.lookup_cons, beq_self_eq_true]
    · have hne : (f.1 == g.1) = false := by
        apply beq_false_of_ne
        intro heq
        apply hpayload.1
        rw [← heq]
        exact List.mem_map_of_mem hrest
      rw [List.lookup_cons, hne]
      exact ih hrest hpayload.2

/-- An authorized payload has each name once. -/
theorem nodup_normalizedPayload {operation : String} {raw : PyJson} {authorization : Authorization}
    (h : validate lib operation raw = .ok authorization) :
    (authorization.normalizedPayload.map Prod.fst).Nodup := by
  obtain ⟨payload, -, hoperation, hnormalized, -⟩ := validate_eq_ok.mp h
  rw [show authorization.normalizedPayload.map Prod.fst = _ from normalize_names hnormalized]
  exact (nodup_normalizedNames operation hoperation).map PyStr.ofString_injective

/-- The normalized payload, its fields in any order, gives the authorization again. -/
theorem validate_perm (hnames : LegalNames lib) {operation : String} {raw : PyJson}
    {authorization : Authorization} (h : validate lib operation raw = .ok authorization)
    {payload' : Fields} (hperm : payload'.Perm authorization.normalizedPayload) :
    validate lib operation (.obj payload') = .ok authorization := by
  apply validate_stable hnames h (agrees_of_perm hperm (nodup_normalizedPayload h))
  intro f hf
  exact List.mem_map_of_mem (hperm.mem_iff.mp hf)

/-! ## The values of the fields -/

/-- A value that holds no other, a number of at most ten digits if it is one. -/
def isScalar : PyJson → Bool
  | .null | .bool _ | .str _ => true
  | .int n => n.natAbs ≤ 2 ^ 31
  | _ => false

def Scalars (out : Fields) : Prop := ∀ f ∈ out, isScalar f.2 = true

/-- An accepted text is a scalar. -/
theorem isScalar_trimmedText {value out : PyJson} {minimum maximum : ℕ}
    (h : trimmedText value minimum maximum = .ok out) : isScalar out = true := by
  unfold trimmedText at h
  split at h
  · split at h
    · cases h
      rfl
    · cases h
  · cases h

/-- An accepted optional text is a scalar. -/
theorem isScalar_optionalText {value out : PyJson} {minimum maximum : ℕ}
    (h : optionalText value minimum maximum = .ok out) : isScalar out = true := by
  unfold optionalText at h
  split at h
  · cases h
    rfl
  · exact isScalar_trimmedText h

/-- An accepted flag is a scalar. -/
theorem isScalar_flag {payload : Fields} {name : String} {default : Bool} {out : PyJson}
    (h : flag payload name default = .ok out) : isScalar out = true := by
  unfold flag at h
  split at h
  · cases h
    rfl
  · cases h
    rfl
  · cases h

/-- An integer within 32 bits is a scalar. -/
theorem isScalar_int {n low high : ℤ} (h : low ≤ n ∧ n ≤ high) (hlow : -2 ^ 31 ≤ low)
    (hhigh : high ≤ 2 ^ 31) : isScalar (.int n) = true := by
  have hsize : n.natAbs ≤ 2 ^ 31 := by
    obtain ⟨hge, hle⟩ := h
    omega
  exact decide_eq_true hsize

/-- The common fields of a result are scalars. -/
theorem scalars_base {payload out : Fields} (h : base lib payload = .ok out) : Scalars out := by
  simp only [base, bind_eq_ok] at h
  obtain ⟨n, hn, digest, hdigest, name, -, h⟩ := h
  cases h
  have htimeout : isScalar (.int n) = true := by
    unfold timeout at hn
    split at hn
    · cases hn
      rfl
    · split at hn
      · rename_i hrange
        cases hn
        exact isScalar_int hrange (by decide) (by decide)
      · cases hn
    · cases hn
  have hvalue : isScalar digest = true := by
    unfold inventoryDigest at hdigest
    split at hdigest
    · cases hdigest
      rfl
    · split at hdigest
      · cases hdigest
        rfl
      · cases hdigest
    · cases hdigest
  intro f hf
  simp only [List.mem_cons, List.not_mem_nil, or_false] at hf
  rcases hf with rfl | rfl | rfl
  · rfl
  · exact htimeout
  · exact hvalue

/-- The fields of a restore are scalars. -/
theorem scalars_backupFields {payload out : Fields} (h : backupFields payload = .ok out) :
    Scalars out := by
  simp only [backupFields, bind_eq_ok] at h
  obtain ⟨template, htemplate, bucket, hbucket, start, hstart, publicFiles, hpublic, privateFiles,
    hprivate, encryptionKey, hkey, h⟩ := h
  cases h
  intro f hf
  simp only [List.mem_cons, List.not_mem_nil, or_false] at hf
  rcases hf with rfl | rfl | rfl | rfl | rfl | rfl
  · exact isScalar_trimmedText htemplate
  · exact isScalar_optionalText hbucket
  · exact isScalar_optionalText hstart
  · exact isScalar_flag hpublic
  · exact isScalar_flag hprivate
  · exact isScalar_flag hkey

/-- The fields of a deletion are scalars. -/
theorem scalars_deleteFields {payload out : Fields} (h : deleteFields payload = .ok out) :
    Scalars out := by
  simp only [deleteFields, bind_eq_ok] at h
  obtain ⟨days, hdays, -, -, h⟩ := h
  cases h
  have hvalue : isScalar (.int days) = true := by
    unfold quarantineDays at hdays
    split at hdays
    · cases hdays
      rfl
    · split at hdays
      · rename_i hrange
        cases hdays
        exact isScalar_int hrange (by decide) (by decide)
      · cases hdays
    · cases hdays
  intro f hf
  simp only [List.mem_cons, List.not_mem_nil, or_false] at hf
  rcases hf with rfl | rfl
  · exact hvalue
  · rfl

/-- The fields of a configuration update are scalars. -/
theorem scalars_configFields {payload out : Fields} (h : configFields lib payload = .ok out) :
    Scalars out := by
  simp only [configFields, bind_eq_ok] at h
  obtain ⟨key, hkey, value, hvalue, reason, hreason, h⟩ := h
  cases h
  have hscalarKey : isScalar key = true := by
    unfold configKey at hkey
    split at hkey
    · split at hkey
      · cases hkey
        rfl
      · cases hkey
    · cases hkey
  have hscalarValue : isScalar value = true := by
    unfold configValue at hvalue
    split at hvalue
    · cases hvalue
      rfl
    · split at hvalue
      · rename_i hrange
        cases hvalue
        exact isScalar_int ⟨hrange.1, hrange.2.le⟩ (by decide) (by decide)
      · cases hvalue
    · rw [configText_eq_ok hvalue]
      rfl
    · cases hvalue
  intro f hf
  simp only [List.mem_cons, List.not_mem_nil, or_false] at hf
  rcases hf with rfl | rfl | rfl
  · exact hscalarKey
  · exact hscalarValue
  · exact isScalar_trimmedText hreason

/-- The fields of every family are scalars. -/
theorem scalars_extraFields {operation : String} {payload out : Fields}
    (h : extraFields lib operation payload = .ok out) : Scalars out := by
  unfold extraFields at h
  split at h
  · exact scalars_backupFields h
  · split at h
    · simp only [siteBackupFields, bind_eq_ok] at h
      obtain ⟨withFiles, hfiles, h⟩ := h
      cases h
      intro f hf
      rw [List.mem_singleton.mp hf]
      exact isScalar_flag hfiles
    · split at h
      · exact scalars_deleteFields h
      · split at h
        · exact scalars_configFields h
        · cases h
          intro f hf
          cases hf

/-- The confirmation and its flag are scalars. -/
theorem scalars_confirmationFields {operation : String} {payload normalized out : Fields}
    (h : confirmationFields lib operation payload normalized = .ok out) : Scalars out := by
  unfold confirmationFields at h
  split at h
  · obtain ⟨name, -, h⟩ := bind_eq_ok.mp h
    split at h
    · split at h
      · cases h
        intro f hf
        simp only [List.mem_cons, List.not_mem_nil, or_false] at hf
        rcases hf with rfl | rfl <;> rfl
      · cases h
    · cases h
  · cases h
    intro f hf
    cases hf

/-- A normalized payload holds texts, booleans and small numbers only. -/
theorem scalars_normalizedPayload {operation : String} {raw : PyJson}
    {authorization : Authorization} (h : validate lib operation raw = .ok authorization) :
    Scalars authorization.normalizedPayload := by
  obtain ⟨payload, -, -, hnormalized, -⟩ := validate_eq_ok.mp h
  simp only [normalize, bind_eq_ok] at hnormalized
  obtain ⟨-, -, baseOut, hbase, extra, hextra, confirmation, hconfirmation, heq⟩ := hnormalized
  have hout : authorization.normalizedPayload = baseOut ++ extra ++ confirmation :=
    (Except.ok.inj heq).symm
  intro f hf
  rw [hout, List.mem_append, List.mem_append] at hf
  rcases hf with (hf | hf) | hf
  · exact scalars_base hbase f hf
  · exact scalars_extraFields hextra f hf
  · exact scalars_confirmationFields hconfirmation f hf

end LifecycleAuthoring

end FrappeController
