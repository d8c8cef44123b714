import FrappeController.SourceCatalog
import FrappeController.Library.Transaction

/-!
# Reviewed records are written as they were reviewed

Each check of a value accepts what it returned and returns it again (`*_stable`), so a record that
has been normalized normalizes to itself; a batch has no two records that differ in case only.
-/

namespace FrappeController

/-! ## Trimming -/

namespace PyStr

/-- A text that begins with no space keeps its beginning when its end is trimmed. -/
theorem dropWhile_rdropWhile {p : CodePoint → Bool} {s : PyStr} (h : s.dropWhile p = s) :
    (s.rdropWhile p).dropWhile p = s.rdropWhile p := by
  cases hout : s.rdropWhile p with
  | nil => rfl
  | cons c rest =>
    obtain ⟨tail, htail⟩ := List.rdropWhile_prefix p s
    rw [hout] at htail
    have hc : p c = false := by
      rw [← htail, List.cons_append, List.dropWhile_cons] at h
      by_contra hspace
      rw [if_pos (Bool.eq_true_of_not_eq_false hspace)] at h
      have hlength := (List.dropWhile_sublist p (l := rest ++ tail)).length_le
      rw [h, List.length_cons] at hlength
      omega
    rw [List.dropWhile_cons, hc, if_neg Bool.false_ne_true]

@[simp] theorem strip_strip (s : PyStr) : s.strip.strip = s.strip := by
  have hfront : (s.dropWhile isSpacePoint).dropWhile isSpacePoint = s.dropWhile isSpacePoint :=
    List.dropWhile_idempotent _ s
  rw [strip, strip, dropWhile_rdropWhile hfront, List.rdropWhile_idempotent]

end PyStr

namespace SourceCatalog

open PyJson
open Transaction (bind_eq_ok)

variable {lib : NumberLibrary}

/-! ## Values -/

theorem integer_eq_ok {value : PyJson} {label : String} {minimum maximum n : ℤ}
    (h : integer lib value label minimum maximum = .ok n) : minimum ≤ n ∧ n ≤ maximum := by
  unfold integer at h
  split at h
  · split at h
    · rename_i hrange
      cases h
      exact hrange
    · cases h
  · cases h

theorem integer_stable {value : PyJson} {label : String} {minimum maximum n : ℤ}
    (h : integer lib value label minimum maximum = .ok n) :
    integer lib (.int n) label minimum maximum = .ok n :=
  if_pos (integer_eq_ok h)

theorem bounded_eq_ok {field : Field} {x : PyFloat} {out : PyJson} (h : bounded field x = .ok out) :
    out = .float x := by
  unfold bounded at h
  split at h
  · split at h
    · exact (Except.ok.inj h).symm
    · cases h
  · cases h

theorem bounded_of_number {field : Field} {value out : PyJson}
    (h : number lib field value = .ok out) : ∃ x, bounded field x = .ok out := by
  unfold number at h
  split at h
  · exact ⟨_, h⟩
  · split at h
    · exact ⟨_, h⟩
    · cases h
  · split at h
    · exact ⟨_, h⟩
    · cases h
  · cases h

theorem number_stable {field : Field} {value out : PyJson} (h : number lib field value = .ok out) :
    number lib field out = .ok out := by
  obtain ⟨x, hx⟩ := bounded_of_number h
  have hout := bounded_eq_ok hx
  subst hout
  exact hx

theorem number_ne_null {field : Field} {value out : PyJson} (h : number lib field value = .ok out) :
    out ≠ .null := by
  obtain ⟨x, hx⟩ := bounded_of_number h
  rw [bounded_eq_ok hx]
  exact fun hnull => by cases hnull

theorem trimmedText_ne_null {field : Field} {required : Bool} {value out : PyJson}
    (h : trimmedText field required value = .ok out) : out ≠ .null := by
  unfold trimmedText at h
  split at h
  · split at h
    · cases h
    · cases h
      exact fun hnull => by cases hnull
  · cases h

theorem trimmedText_stable {field : Field} {required : Bool} {value out : PyJson}
    (h : trimmedText field required value = .ok out) : trimmedText field required out = .ok out := by
  unfold trimmedText at h
  split at h
  · split at h
    · cases h
    · rename_i s hlegal
      cases h
      rw [trimmedText, PyStr.strip_strip, if_neg hlegal]
  · cases h

theorem normalizeValue_eq {field : Field} {required : Bool} {value : PyJson}
    (h : value ≠ .null) : normalizeValue lib field required value =
      if field.number then
        if field.name = "year" then return .int (← integer lib value field.name 1886 2200)
        else if field.name = "id" then return .int (← integer lib value field.name 1 2147483647)
        else number lib field value
      else trimmedText field required value := by
  unfold normalizeValue
  split
  · exact absurd rfl h
  · rfl

theorem normalizeValue_stable {field : Field} {required : Bool} {value out : PyJson}
    (h : normalizeValue lib field required value = .ok out) :
    normalizeValue lib field required out = .ok out := by
  -- null stays null where it is accepted
  by_cases hnull : value = .null
  · rw [hnull] at h
    have hsame : out = .null := by
      unfold normalizeValue at h
      split at h
      · split at h
        · exact (Except.ok.inj h).symm
        · cases h
      · rename_i hne
        exact absurd rfl hne
    rw [hsame] at h ⊢
    exact h
  rw [normalizeValue_eq hnull] at h
  -- every other value has the normal form of its field
  by_cases hnumber : field.number = true
  · rw [if_pos hnumber] at h
    by_cases hyear : field.name = "year"
    · rw [if_pos hyear] at h
      obtain ⟨n, hn, hout⟩ := bind_eq_ok.mp h
      rw [← Except.ok.inj hout, normalizeValue_eq (by simp), if_pos hnumber, if_pos hyear,
        integer_stable hn]
      rfl
    · rw [if_neg hyear] at h
      by_cases hid : field.name = "id"
      · rw [if_pos hid] at h
        obtain ⟨n, hn, hout⟩ := bind_eq_ok.mp h
        rw [← Except.ok.inj hout, normalizeValue_eq (by simp), if_pos hnumber, if_neg hyear,
          if_pos hid, integer_stable hn]
        rfl
      · rw [if_neg hid] at h
        rw [normalizeValue_eq (number_ne_null h), if_pos hnumber, if_neg hyear, if_neg hid]
        exact number_stable h
  · rw [if_neg hnumber] at h
    rw [normalizeValue_eq (trimmedText_ne_null h), if_neg hnumber]
    exact trimmedText_stable h

/-! ## Records -/

theorem normalizeEntry_stable {fields : List Field} {required : List String}
    {entry out : PyStr × PyJson} (h : normalizeEntry lib fields required entry = .ok out) :
    out.1 = entry.1 ∧ normalizeEntry lib fields required out = .ok out := by
  unfold normalizeEntry at h
  split at h
  · cases h
  · rename_i field hfield
    obtain ⟨value, hvalue, hout⟩ := bind_eq_ok.mp h
    cases hout
    refine ⟨rfl, ?_⟩
    unfold normalizeEntry
    rw [hfield]
    exact bind_eq_ok.mpr ⟨value, normalizeValue_stable hvalue, rfl⟩

/-- A normalized record has the names of the record, and each of its entries is settled. -/
theorem entries_stable {fields : List Field} {required : List String} {record result : Fields}
    (h : record.mapM (normalizeEntry lib fields required) = .ok result) :
    result.map Prod.fst = record.map Prod.fst
      ∧ result.mapM (normalizeEntry lib fields required) = .ok result := by
  have hall := Keyed.mapM_eq_ok.mp h
  constructor
  · exact Keyed.map_eq_of_forall₂ (hall.imp fun _ _ hentry => (normalizeEntry_stable hentry).1)
  · refine Keyed.mapM_self fun out hout => ?_
    obtain ⟨entry, -, hentry⟩ := Keyed.exists_mem_of_mem hall.flip hout
    exact (normalizeEntry_stable hentry).2

/-- The names of a record decide which of its fields are there. -/
theorem isNone_field? {record result : Fields} (h : result.map Prod.fst = record.map Prod.fst)
    (name : String) : (field? result name).isNone = (field? record name).isNone := by
  have hmem : ∀ fields : Fields, (field? fields name).isNone
      = !(fields.map Prod.fst).contains (PyStr.ofString name) := by
    intro fields
    induction fields with
    | nil => rfl
    | cons entry rest ih =>
      unfold field? at ih ⊢
      rw [List.lookup_cons, List.map_cons, List.contains_cons]
      cases hsame : PyStr.ofString name == entry.1 with
      | true => rfl
      | false => rw [Bool.false_or, ← ih]
  rw [hmem, hmem, h]

theorem keysWithin_eq {record result : Fields} (h : result.map Prod.fst = record.map Prod.fst)
    (allowed : List String) : keysWithin result allowed = keysWithin record allowed := by
  have hall : ∀ fields : Fields, keysWithin fields allowed
      = (fields.map Prod.fst).all (allowed.map PyStr.ofString).contains := by
    intro fields
    rw [List.all_map]
    rfl
  rw [hall, hall, h]

section Record

variable {resource : String} {catalog : Catalog} {filtering partialRecord : Bool}

/-- What is checked of a record: its keys, the required ones, each entry, and the name shown. -/
theorem validateRecord_eq_ok {record result : Fields} :
    validateRecord lib resource catalog record filtering partialRecord = .ok result
      ↔ keysWithin record ((allowedFields catalog filtering).map (·.name)) = true
        ∧ (!filtering && !partialRecord
            && catalog.required.any fun name => (field? record name).isNone) = false
        ∧ record.mapM (normalizeEntry lib (allowedFields catalog filtering)
            (requiredNames catalog filtering)) = .ok result
        ∧ ¬ (resource = "vehicles" ∧ 150 < displayLength result) := by
  unfold validateRecord
  -- the checks in the order the source makes them
  by_cases hkeys : keysWithin record ((allowedFields catalog filtering).map (·.name)) = true
  · rw [hkeys]
    by_cases hrequired : (!filtering && !partialRecord
        && catalog.required.any fun name => (field? record name).isNone) = true
    · rw [if_neg (by decide), if_pos hrequired, hrequired]
      constructor
      · intro h
        cases h
      · intro h
        exact absurd h.2.1 (by decide)
    · rw [if_neg (by decide), if_neg hrequired, Bool.eq_false_iff.mpr hrequired, bind_eq_ok]
      constructor
      · intro h
        obtain ⟨result', hentries, h⟩ := h
        split at h
        · cases h
        · rename_i hdisplay
          rw [← Except.ok.inj h]
          exact ⟨rfl, rfl, hentries, hdisplay⟩
      · intro h
        exact ⟨result, h.2.2.1, if_neg h.2.2.2⟩
  · rw [Bool.eq_false_iff.mpr hkeys, if_pos (by decide)]
    constructor
    · intro h
      cases h
    · intro h
      exact absurd h.1 (by decide)

theorem validateFields_eq_ok {record : PyJson} {result : Fields}
    (h : validateFields lib resource record filtering partialRecord = .ok result) :
    ∃ catalog fields, requireCatalog resource = .ok catalog ∧ record = .obj fields
      ∧ validateRecord lib resource catalog fields filtering partialRecord = .ok result := by
  obtain ⟨catalog, hcatalog, h⟩ := bind_eq_ok.mp h
  split at h
  · exact ⟨catalog, _, hcatalog, rfl, h⟩
  · cases h

/-- A normalized record normalizes to itself. -/
theorem validateFields_stable {record : PyJson} {result : Fields}
    (h : validateFields lib resource record filtering partialRecord = .ok result) :
    validateFields lib resource (.obj result) filtering partialRecord = .ok result := by
  obtain ⟨catalog, fields, hcatalog, -, hrecord⟩ := validateFields_eq_ok h
  obtain ⟨hkeys, hrequired, hentries, hdisplay⟩ := validateRecord_eq_ok.mp hrecord
  obtain ⟨hnames, hstable⟩ := entries_stable hentries
  apply bind_eq_ok.mpr
  refine ⟨catalog, hcatalog, validateRecord_eq_ok.mpr ⟨?_, ?_, hstable, hdisplay⟩⟩
  · rw [keysWithin_eq hnames]
    exact hkeys
  · simp only [isNone_field? hnames]
    exact hrequired

end Record

/-! ## Batches -/

/-- Two records that are equal but for the case of their texts. -/
def EqualUpToCase (lib : NumberLibrary) (a b : Fields) : Prop :=
  (foldedFields lib a).Perm (foldedFields lib b)

theorem keys_foldedFields (record : Fields) :
    (foldedFields lib record).map Prod.fst = record.map Prod.fst := by
  rw [foldedFields, List.map_map]
  rfl

/-- Such records have one identity. -/
theorem identity_eq {a b : Fields} (ha : (a.map Prod.fst).Nodup) (h : EqualUpToCase lib a b) :
    identity lib a = identity lib b := by
  have hfirst : ((foldedFields lib a).map Prod.fst).Nodup := (keys_foldedFields a).symm ▸ ha
  have hsecond : ((foldedFields lib b).map Prod.fst).Nodup := (h.map Prod.fst).nodup_iff.mp hfirst
  have hsorted : Keyed.sortOn Prod.fst (foldedFields lib a)
      = Keyed.sortOn Prod.fst (foldedFields lib b) := by
    refine Keyed.eq_of_perm_of_strict ?_ (Keyed.strict_sortOn hfirst) (Keyed.strict_sortOn hsecond)
    exact ((Keyed.perm_sortOn _).trans h).trans (Keyed.perm_sortOn _).symm
  rw [identity, identity, hsorted]

/-- An accepted batch has the normalized rows, and each identity once. -/
theorem addRows_eq_ok {resource : String} {index : ℕ} {seen : List Text} {rows : List PyJson}
    {out : List Fields} (h : addRows lib resource index seen rows = .ok out) :
    List.Forall₂ (fun row value => validateFields lib resource row false false = .ok value) rows out
      ∧ (out.map (identity lib)).Nodup ∧ ∀ value ∈ out, identity lib value ∉ seen := by
  induction rows generalizing index seen out with
  | nil =>
    cases h
    exact ⟨.nil, List.nodup_nil, fun value hvalue => absurd hvalue List.not_mem_nil⟩
  | cons row rest ih =>
    unfold addRows at h
    split at h
    · cases h
    · cases h
    · rename_i value hvalue
      split at h
      · cases h
      · rename_i hnew
        obtain ⟨values, hvalues, h⟩ := bind_eq_ok.mp h
        cases h
        obtain ⟨hall, hnodup, hfresh⟩ := ih hvalues
        have hhead : identity lib value ∉ values.map (identity lib) := by
          intro hmem
          obtain ⟨other, hother, heq⟩ := List.mem_map.mp hmem
          exact hfresh other hother (heq ▸ List.mem_cons_self)
        refine ⟨.cons hvalue hall, List.nodup_cons.mpr ⟨hhead, hnodup⟩, ?_⟩
        refine List.forall_mem_cons.mpr ⟨fun hmem => ?_, fun other hother hmem => ?_⟩
        · exact hnew (List.contains_iff_mem.mpr hmem)
        · exact hfresh other hother (List.mem_cons_of_mem _ hmem)

theorem validateAddRecords_eq_ok {records : PyJson} {resource : String} {out : List Fields}
    (h : validateAddRecords lib records resource = .ok out) :
    ∃ rows catalog, records = .arr rows ∧ requireCatalog resource = .ok catalog
      ∧ addRows lib resource 1 [] rows = .ok out := by
  obtain ⟨catalog, hcatalog, h⟩ := bind_eq_ok.mp h
  split at h
  · split at h
    · exact ⟨_, catalog, rfl, hcatalog, h⟩
    · cases h
  · cases h

/-- A normalized row on its own is accepted as it is. -/
theorem validateAddRecords_single {resource : String} {catalog : Catalog} {value : Fields}
    (hcatalog : requireCatalog resource = .ok catalog)
    (h : validateFields lib resource (.obj value) false false = .ok value) :
    validateAddRecords lib (.arr [.obj value]) resource = .ok [value] := by
  have hadded : addRows lib resource 1 [] [.obj value] = .ok [value] := by
    rw [addRows, h]
    rfl
  have hone : 1 ≤ [PyJson.obj value].length ∧ [PyJson.obj value].length ≤ 100 :=
    ⟨le_refl 1, Nat.le_add_left 1 99⟩
  apply bind_eq_ok.mpr
  exact ⟨catalog, hcatalog, (if_pos hone).trans hadded⟩

/-- The names of a row that was read from JSON. -/
def DistinctNames : PyJson → Prop
  | .obj fields => (fields.map Prod.fst).Nodup
  | _ => True

theorem nodup_of_validateFields {resource : String} {row : PyJson} {filtering partialRecord : Bool}
    {value : Fields} (hrow : DistinctNames row)
    (h : validateFields lib resource row filtering partialRecord = .ok value) :
    (value.map Prod.fst).Nodup := by
  obtain ⟨catalog, fields, -, hfields, hrecord⟩ := validateFields_eq_ok h
  have hentries := (validateRecord_eq_ok.mp hrecord).2.2.1
  rw [(entries_stable hentries).1]
  rw [hfields] at hrow
  exact hrow

/-! ## Review and write -/

/-- What was reviewed is written: every row of an accepted batch is accepted on its own as it was
normalized, no two of them differ in case only, and accepted changes are settled as well. -/
theorem review_write_agree (lib : NumberLibrary) (resource : String) :
    (∀ (rows : List PyJson) (normalized : List Fields), (∀ row ∈ rows, DistinctNames row) →
        validateAddRecords lib (.arr rows) resource = .ok normalized →
        (∀ value ∈ normalized, validateAddRecords lib (.arr [.obj value]) resource = .ok [value])
          ∧ normalized.Pairwise fun a b => ¬ EqualUpToCase lib a b)
      ∧ ∀ (changes : PyJson) (result : Fields),
        validateEditChanges lib resource changes = .ok result →
        validateEditChanges lib resource (.obj result) = .ok result := by
  constructor
  · intro rows normalized hdistinct h
    obtain ⟨rows', catalog, hrows, hcatalog, hadded⟩ := validateAddRecords_eq_ok h
    cases hrows
    obtain ⟨hall, hnodup, -⟩ := addRows_eq_ok hadded
    -- each normalized value comes from a row of the batch
    have hof : ∀ value ∈ normalized, ∃ row ∈ rows,
        validateFields lib resource row false false = .ok value := by
      intro value hvalue
      exact Keyed.exists_mem_of_mem hall.flip hvalue
    constructor
    · intro value hvalue
      obtain ⟨row, -, hrow⟩ := hof value hvalue
      exact validateAddRecords_single hcatalog (validateFields_stable hrow)
    -- two values that agree up to case have the same identity
    · refine (List.pairwise_map.mp hnodup).imp_of_mem ?_
      intro a b ha _ hne hequal
      obtain ⟨row, hrow, hvalue⟩ := hof a ha
      exact hne (identity_eq (nodup_of_validateFields (hdistinct row hrow) hvalue) hequal)
  · intro changes result h
    obtain ⟨result', hresult, h⟩ := bind_eq_ok.mp h
    split at h
    · cases h
    · rename_i hne
      cases h
      rw [validateEditChanges, validateFields_stable hresult]
      exact if_neg hne

namespace Sample

/-- Letters of ASCII in lower case. -/
def lower (s : PyStr) : PyStr :=
  s.map fun c => if 65 ≤ c.val ∧ c.val ≤ 90 then Fin.ofNat 0x110000 (c.val + 32) else c

/-- The conversions of the texts below. -/
def numbers : NumberLibrary where
  lower := lower
  casefold := lower
  idna s := some s
  int s := if s = PyStr.ofString "2026" then some 2026 else none
  float _ := none
  floatOfInt _ := none
  floatRepr _ := ""

def text (s : String) : PyJson := .str (PyStr.ofString s)

/-- A vehicle as it is typed in, with spaces and its year as a text. -/
def typed : PyJson :=
  .obj [(PyStr.ofString "brand", text " Toyota "), (PyStr.ofString "model", text "Corolla"),
    (PyStr.ofString "year", text "2026"), (PyStr.ofString "engine", .null)]

def normalized : Fields :=
  [(PyStr.ofString "brand", text "Toyota"), (PyStr.ofString "model", text "Corolla"),
    (PyStr.ofString "year", .int 2026), (PyStr.ofString "engine", .null)]

/-- Another vehicle, as it is typed in. -/
def typedOther : PyJson :=
  .obj [(PyStr.ofString "brand", text "Toyota"), (PyStr.ofString "model", text " Yaris"),
    (PyStr.ofString "year", .int 2026), (PyStr.ofString "engine", .null)]

def other : Fields :=
  [(PyStr.ofString "brand", text "Toyota"), (PyStr.ofString "model", text "Yaris"),
    (PyStr.ofString "year", .int 2026), (PyStr.ofString "engine", .null)]

end Sample

/-- A batch of two vehicles. -/
theorem typed_vehicle_agrees :
    (∀ value ∈ [Sample.normalized, Sample.other],
        validateAddRecords Sample.numbers (.arr [.obj value]) "vehicles" = .ok [value])
      ∧ ¬ EqualUpToCase Sample.numbers Sample.normalized Sample.other
      ∧ validateEditChanges Sample.numbers "vehicles" (.obj Sample.normalized)
        = .ok Sample.normalized := by
  have hdistinct : ∀ row ∈ [Sample.typed, Sample.typedOther], DistinctNames row := by
    refine List.forall_mem_cons.mpr ⟨?_, List.forall_mem_cons.mpr ⟨?_, List.forall_mem_nil _⟩⟩
    · show (_ : List PyStr).Nodup
      decide +kernel
    · show (_ : List PyStr).Nodup
      decide +kernel
  have hadded : validateAddRecords Sample.numbers (.arr [Sample.typed, Sample.typedOther])
      "vehicles" = .ok [Sample.normalized, Sample.other] := by
    with_unfolding_all rfl
  have hedited : validateEditChanges Sample.numbers "vehicles" Sample.typed
      = .ok Sample.normalized := by
    with_unfolding_all rfl
  have hagree := review_write_agree Sample.numbers "vehicles"
  obtain ⟨hrows, hdiffer⟩ := hagree.1 [Sample.typed, Sample.typedOther]
    [Sample.normalized, Sample.other] hdistinct hadded
  exact ⟨hrows, (List.pairwise_cons.mp hdiffer).1 Sample.other List.mem_cons_self,
    hagree.2 Sample.typed Sample.normalized hedited⟩

end SourceCatalog

end FrappeController
