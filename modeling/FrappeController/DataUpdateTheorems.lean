import FrappeController.DataUpdateFields

/-!
# Data updates: normal forms

A payload in normal form is accepted with its own parts (`Accepts`, `Holds`), whatever the order
of its keys, so a stored command normalizes to itself and has its stored hash.
-/

namespace FrappeController
namespace DataUpdateAuthoring

open PyJson
open Reader (setItem keys_ofFields)
open Transaction (bind_eq_ok)

variable {lib : TextLibrary} {R : Runtime} {L : Reader}

/-! ## Payloads -/

/-- What the checks of a payload establish. -/
structure Accepts (lib : TextLibrary) (payload : Fields) (dryRun : Bool) (parts : Payload) :
    Prop where
  keys : sameKeys payload payloadNames = true
  version : field payload "contract_version" = .str (.ofString "1.0")
  dry : field payload "dry_run" = .bool dryRun
  rows : maximumRows (field payload "maximum_rows") = .ok parts.rows
  selection : (isSelection (field payload "document_names")
    != isSelection (field payload "filters")) = true
  names : documentNames lib (field payload "document_names") = .ok parts.names
  filters : filters lib (field payload "filters") = .ok parts.filters
  changes : changes lib (field payload "changes") = .ok parts.changes
  expected : expectedModified lib (field payload "expected_modified") parts.rows parts.names
    = .ok parts.expected
  doctype : doctype lib (field payload "doctype") = .ok parts.doctype
  reason : trimmedText lib 500 (field payload "reason") = .ok parts.reason

/-- The contract of a payload: its keys, its version, and whether it is a preview. -/
theorem checkContract_eq_ok {payload : Fields} {dryRun : Bool} {u : Unit} :
    checkContract payload dryRun = .ok u ↔ sameKeys payload payloadNames = true
      ∧ field payload "contract_version" = .str (.ofString "1.0")
      ∧ field payload "dry_run" = .bool dryRun := by
  unfold checkContract
  split
  · rename_i version b hversion hdry
    rw [require_eq_ok, hversion, hdry, Bool.and_eq_true, Bool.and_eq_true, beq_iff_eq, beq_iff_eq,
      PyJson.str.injEq, PyJson.bool.injEq, and_assoc]
  · rename_i hother
    constructor
    · intro h
      cases h
    · intro h
      exact absurd h.2.2 (hother _ _ h.2.1)

/-- The parts are read exactly where every check passes. -/
theorem payloadParts_eq_ok {payload : Fields} {dryRun : Bool} {parts : Payload} :
    payloadParts lib payload dryRun = .ok parts ↔ Accepts lib payload dryRun parts := by
  constructor
  · intro h
    obtain ⟨u, hcontract, h⟩ := bind_eq_ok.mp h
    obtain ⟨rows, hrows, h⟩ := bind_eq_ok.mp h
    obtain ⟨v, hselection, h⟩ := bind_eq_ok.mp h
    obtain ⟨names, hnames, h⟩ := bind_eq_ok.mp h
    obtain ⟨filters, hfilters, h⟩ := bind_eq_ok.mp h
    obtain ⟨changes, hchanges, h⟩ := bind_eq_ok.mp h
    obtain ⟨expected, hexpected, h⟩ := bind_eq_ok.mp h
    obtain ⟨doctype, hdoctype, h⟩ := bind_eq_ok.mp h
    obtain ⟨reason, hreason, h⟩ := bind_eq_ok.mp h
    obtain ⟨hkeys, hversion, hdry⟩ := checkContract_eq_ok.mp hcontract
    rw [← Except.ok.inj h]
    exact ⟨hkeys, hversion, hdry, hrows, require_eq_ok.mp hselection, hnames, hfilters, hchanges,
      hexpected, hdoctype, hreason⟩
  · intro h
    refine bind_eq_ok.mpr ⟨(), checkContract_eq_ok.mpr ⟨h.keys, h.version, h.dry⟩, ?_⟩
    refine bind_eq_ok.mpr ⟨_, h.rows, bind_eq_ok.mpr ⟨(), require_eq_ok.mpr h.selection, ?_⟩⟩
    refine bind_eq_ok.mpr ⟨_, h.names, bind_eq_ok.mpr ⟨_, h.filters, ?_⟩⟩
    refine bind_eq_ok.mpr ⟨_, h.changes, bind_eq_ok.mpr ⟨_, h.expected, ?_⟩⟩
    exact bind_eq_ok.mpr ⟨_, h.doctype, bind_eq_ok.mpr ⟨_, h.reason, rfl⟩⟩

/-- The payload has the parts as its fields, in some order. -/
structure Holds (payload : Fields) (parts : Payload) (dryRun : Bool) : Prop where
  keys : sameKeys payload payloadNames = true
  version : field payload "contract_version" = .str (.ofString "1.0")
  dry : field payload "dry_run" = .bool dryRun
  rows : field payload "maximum_rows" = .int parts.rows
  names : field payload "document_names" = namesJson parts.names
  filters : field payload "filters" = parts.filters
  changes : field payload "changes" = .obj parts.changes
  expected : field payload "expected_modified" = parts.expected
  doctype : field payload "doctype" = .str parts.doctype
  reason : field payload "reason" = .str parts.reason

/-- The fields written from parts hold them. -/
theorem holds_fields (parts : Payload) (dryRun : Bool) :
    Holds (parts.fields dryRun) parts dryRun where
  keys := by
    apply sameKeys_of_perm
    rfl
  version := by simp [Payload.fields, field_cons]
  dry := by simp [Payload.fields, field_cons]
  rows := by simp [Payload.fields, field_cons]
  names := by simp [Payload.fields, field_cons]
  filters := by simp [Payload.fields, field_cons]
  changes := by simp [Payload.fields, field_cons]
  expected := by simp [Payload.fields, field_cons]
  doctype := by simp [Payload.fields, field_cons]
  reason := by simp [Payload.fields, field_cons]

/-- A payload that holds accepted parts is accepted with them, for a preview or its promotion. -/
theorem accepts_of_holds (htexts : LawfulTexts lib) {payload payload' : Fields} {dryRun dryRun' : Bool}
    {parts : Payload} {changed : Fields} (h : Accepts lib payload dryRun parts)
    (hchanged : changes lib (.obj changed) = .ok changed)
    (hholds : Holds payload' { parts with changes := changed } dryRun') :
    Accepts lib payload' dryRun' { parts with changes := changed } := by
  obtain ⟨hfilters, hselected⟩ := filters_stable htexts h.filters
  have hnames := documentNames_eq_ok h.names
  refine ⟨hholds.keys, hholds.version, hholds.dry, ?_, ?_, ?_, ?_, ?_, ?_, ?_, ?_⟩
  · rw [hholds.rows, ← maximumRows_eq_ok h.rows]
    exact h.rows
  · rw [hholds.names, hholds.filters, hselected, ← hnames]
    exact h.selection
  · rw [hholds.names, ← hnames]
    exact h.names
  · rw [hholds.filters]
    exact hfilters
  · rw [hholds.changes]
    exact hchanged
  · rw [hholds.expected]
    exact expectedModified_stable htexts h.expected
  · rw [hholds.doctype, ← doctype_eq_ok h.doctype]
    exact h.doctype
  · rw [hholds.reason, ← (trimmedText_eq_ok.mp h.reason).1]
    exact h.reason

/-- A payload normalizes to the fields of its parts, where these can be encoded within the size
limit. -/
theorem normalizePayload_eq_ok {raw : PyJson} {dryRun : Bool} {out : Fields} :
    normalizePayload lib R raw dryRun = .ok out ↔
      ∃ payload parts, raw = .obj payload ∧ Accepts lib payload dryRun parts
        ∧ (∃ document, toFields? (parts.fields dryRun) = some document
          ∧ utf8Length (R.dumps (.obj document)) ≤ 128 * 1024)
        ∧ out = parts.fields dryRun := by
  cases raw with
  | obj payload =>
    simp only [normalizePayload, bind_eq_ok, payloadParts_eq_ok, require_eq_ok, exists_const, pure,
      Except.pure, Except.ok.injEq, decide_eq_true_eq, PyJson.obj.injEq, encoded]
    constructor
    · rintro ⟨parts, haccepts, text, htext, hsize, rfl⟩
      split at htext
      · rename_i document hdocument
        rw [← Except.ok.inj htext] at hsize
        exact ⟨payload, parts, rfl, haccepts, ⟨document, hdocument, hsize⟩, rfl⟩
      · cases htext
    · rintro ⟨_, parts, rfl, haccepts, ⟨document, hdocument, hsize⟩, rfl⟩
      refine ⟨parts, haccepts, R.dumps (.obj document), ?_, hsize, rfl⟩
      rw [hdocument]
  | _ =>
    constructor
    · intro h
      cases h
    · rintro ⟨payload, parts, h, -⟩
      cases h

/-- A command normalizes to its policy and its normalized payload. -/
theorem normalizeCommand_eq_ok {operation : String} {raw : PyJson} {dryRun : Bool} {out : Fields} :
    normalizeCommand lib R operation raw dryRun = .ok out ↔
      ∃ command policy payload, raw = .obj command ∧ operation ∈ operations
        ∧ sameKeys command commandNames = true ∧ policyId (field command "policy_id") = .ok policy
        ∧ normalizePayload lib R (field command "payload") dryRun = .ok payload
        ∧ out = commandFields policy payload := by
  cases raw with
  | obj command =>
    simp only [normalizeCommand]
    split
    · rename_i hshape
      rw [Bool.and_eq_true, List.contains_iff_mem] at hshape
      simp only [bind_eq_ok, pure, Except.pure, Except.ok.injEq, PyJson.obj.injEq]
      constructor
      · rintro ⟨policy, hpolicy, payload, hpayload, rfl⟩
        exact ⟨command, policy, payload, rfl, hshape.1, hshape.2, hpolicy, hpayload, rfl⟩
      · rintro ⟨_, policy, payload, rfl, -, -, hpolicy, hpayload, rfl⟩
        exact ⟨policy, hpolicy, payload, hpayload, rfl⟩
    · rename_i hshape
      rw [Bool.and_eq_true, List.contains_iff_mem] at hshape
      constructor
      · intro h
        cases h
      · rintro ⟨_, policy, payload, heq, hoperation, hkeys, -⟩
        cases heq
        exact absurd ⟨hoperation, hkeys⟩ hshape
  | _ =>
    constructor
    · intro h
      cases h
    · rintro ⟨command, policy, payload, h, -⟩
      cases h

/-! ## Payloads as documents -/

/-- The first field of an object comes from the first field of its document. -/
theorem ofFields_eq_cons {document : List (String × Json)} {key : String} {x : PyJson}
    {rest : Fields} (h : ofFields document = (.ofString key, x) :: rest) :
    ∃ j document', document = (key, j) :: document' ∧ ofJson j = x ∧ ofFields document' = rest := by
  cases document with
  | nil => cases h
  | cons f document =>
    obtain ⟨name, j⟩ := f
    rw [ofFields, List.cons.injEq, Prod.mk.injEq] at h
    exact ⟨j, document, by rw [PyStr.ofString_injective h.1.1], h.1.2, h.2⟩

/-- An object without fields comes from a document without fields. -/
theorem ofFields_eq_nil {document : List (String × Json)} (h : ofFields document = []) :
    document = [] := by
  cases document with
  | nil => rfl
  | cons f document => cases h

/-- A string comes from a string. -/
theorem ofJson_eq_str {j : Json} {s : PyStr} (h : ofJson j = .str s) :
    ∃ text, j = .str text ∧ PyStr.ofString text = s := by
  cases j with
  | str text => exact ⟨text, rfl, PyJson.str.inj h⟩
  | _ => cases h

/-- An object comes from an object. -/
theorem ofJson_eq_obj {j : Json} {fields : Fields} (h : ofJson j = .obj fields) :
    ∃ document, j = .obj document ∧ ofFields document = fields := by
  cases j with
  | obj document => exact ⟨document, rfl, PyJson.obj.inj h⟩
  | _ => cases h

/-- A payload in normal form, without surrogates. -/
structure Document where
  doctype : String
  names : Json
  filters : Json
  changes : List (String × Json)
  expected : Json
  rows : ℤ
  reason : String

def Document.fields (document : Document) (dryRun : Bool) : List (String × Json) :=
  [("contract_version", .str "1.0"), ("doctype", .str document.doctype),
    ("document_names", document.names), ("filters", document.filters),
    ("changes", .obj document.changes), ("expected_modified", document.expected),
    ("dry_run", .bool dryRun), ("maximum_rows", .int document.rows),
    ("reason", .str document.reason)]

/-- The document of the parts of a payload. -/
structure Document.Describes (document : Document) (parts : Payload) : Prop where
  doctype : PyStr.ofString document.doctype = parts.doctype
  names : ofJson document.names = namesJson parts.names
  filters : ofJson document.filters = parts.filters
  changes : ofFields document.changes = parts.changes
  expected : ofJson document.expected = parts.expected
  rows : document.rows = parts.rows
  reason : PyStr.ofString document.reason = parts.reason

/-- A document that describes the parts has their fields. -/
theorem Document.Describes.ofFields {document : Document} {parts : Payload}
    (h : document.Describes parts) (dryRun : Bool) :
    PyJson.ofFields (document.fields dryRun) = parts.fields dryRun := by
  simp only [Document.fields, PyJson.ofFields, ofJson, h.doctype, h.names, h.filters, h.changes,
    h.expected, h.rows, h.reason, Payload.fields]

/-- Fields that can be encoded are those of a document. -/
theorem exists_document {parts : Payload} {dryRun : Bool} {fields : List (String × Json)}
    (h : toFields? (parts.fields dryRun) = some fields) :
    ∃ document : Document, document.Describes parts ∧ fields = document.fields dryRun := by
  have hall := ofFields_of_toFields? h
  obtain ⟨version, d₁, rfl, hversion, hall⟩ := ofFields_eq_cons hall
  obtain ⟨doctype, d₂, rfl, hdoctype, hall⟩ := ofFields_eq_cons hall
  obtain ⟨names, d₃, rfl, hnames, hall⟩ := ofFields_eq_cons hall
  obtain ⟨filters, d₄, rfl, hfilters, hall⟩ := ofFields_eq_cons hall
  obtain ⟨changes, d₅, rfl, hchanges, hall⟩ := ofFields_eq_cons hall
  obtain ⟨expected, d₆, rfl, hexpected, hall⟩ := ofFields_eq_cons hall
  obtain ⟨dry, d₇, rfl, hdry, hall⟩ := ofFields_eq_cons hall
  obtain ⟨rows, d₈, rfl, hrows, hall⟩ := ofFields_eq_cons hall
  obtain ⟨reason, d₉, rfl, hreason, hall⟩ := ofFields_eq_cons hall
  rw [ofFields_eq_nil hall]
  have hversion' : version = .str "1.0" := ofJson_injective hversion
  have hdry' : dry = .bool dryRun := ofJson_injective hdry
  have hrows' : rows = .int parts.rows := ofJson_injective hrows
  obtain ⟨doctype', rfl, hdoctype⟩ := ofJson_eq_str hdoctype
  obtain ⟨changes', rfl, hchanged⟩ := ofJson_eq_obj hchanges
  obtain ⟨reason', rfl, hreason⟩ := ofJson_eq_str hreason
  refine ⟨⟨doctype', names, filters, changes', expected, parts.rows, reason'⟩,
    ⟨PyJson.str.inj hdoctype, hnames, hfilters, hchanged, hexpected, rfl, PyJson.str.inj hreason⟩,
    ?_⟩
  rw [hversion', hdry', hrows']
  rfl

/-! ## Payloads read back -/

/-- An array of scalars has no keys to sort. -/
theorem sorted_of_flat {items : List Json} (h : ∀ x ∈ items, isContainer (ofJson x) = false) :
    (Json.arr items).sorted = .arr items := by
  have hsame : ∀ x ∈ items, x.sorted = id x := by
    intro x hx
    have hflat := h x hx
    cases x with
    | arr items => cases hflat
    | obj fields => cases hflat
    | _ => rfl
  rw [Json.sorted, Json.sortedItems_eq_map, List.map_congr_left hsame, List.map_id]

/-- A list of names has no keys to sort. -/
theorem sorted_names {names : Option (List PyStr)} {j : Json} (h : ofJson j = namesJson names) :
    j.sorted = j := by
  cases j with
  | arr items =>
    apply sorted_of_flat
    cases names with
    | none => cases h
    | some names =>
      have hitems : ofItems items = names.map .str := PyJson.arr.inj h
      rw [ofItems_eq_map] at hitems
      intro x hx
      have hmem : ofJson x ∈ names.map PyJson.str := hitems ▸ List.mem_map_of_mem hx
      obtain ⟨s, -, hs⟩ := List.mem_map.mp hmem
      rw [← hs]
      rfl
  | obj fields => cases names <;> cases h
  | _ => rfl

/-- The value of a filter is a scalar, or an array of scalars. -/
theorem sorted_operand {name : PyStr} {j : Json} (h : checkOperand name (ofJson j) = .ok ()) :
    j.sorted = j := by
  cases j with
  | arr items =>
    have hflat : (!(ofItems items).any isContainer) = true := by
      have hcheck := require_eq_ok.mp h
      rw [Bool.and_eq_true] at hcheck
      exact hcheck.2
    apply sorted_of_flat
    intro x hx
    rw [Bool.not_eq_true', List.any_eq_false] at hflat
    rw [ofItems_eq_map] at hflat
    simpa using hflat (ofJson x) (List.mem_map_of_mem hx)
  | obj fields => cases h
  | _ => rfl

/-- The document of a filter. -/
theorem exists_filter {j : Json} {name operator' : PyStr} {operand : PyJson}
    (h : ofJson j = filterFields name operator' operand) :
    ∃ n o v, j = .obj [("field", .str n), ("operator", .str o), ("value", v)]
      ∧ ofJson v = operand := by
  obtain ⟨fields, rfl, hfields⟩ := ofJson_eq_obj h
  obtain ⟨jn, d₁, rfl, hn, hrest⟩ := ofFields_eq_cons hfields
  obtain ⟨jo, d₂, rfl, ho, hrest'⟩ := ofFields_eq_cons hrest
  obtain ⟨v, d₃, rfl, hv, hend⟩ := ofFields_eq_cons hrest'
  obtain ⟨n, rfl, -⟩ := ofJson_eq_str hn
  obtain ⟨o, rfl, -⟩ := ofJson_eq_str ho
  exact ⟨n, o, v, by rw [ofFields_eq_nil hend], hv⟩

/-- What holds of every result of a check holds of the checked list. -/
theorem forall_of_mapM {α β : Type} {f : α → Except AuthoringFault β} {p : β → Prop}
    {items : List α} (hf : ∀ x ∈ items, ∀ y, f x = .ok y → p y) {out : List β}
    (h : items.mapM f = .ok out) : ∀ y ∈ out, p y := by
  induction items generalizing out with
  | nil =>
    cases h
    exact nofun
  | cons x rest ih =>
    rw [List.mapM_cons] at h
    obtain ⟨y, hy, h⟩ := bind_eq_ok.mp h
    obtain ⟨ys, hys, h⟩ := bind_eq_ok.mp h
    rw [List.forall_mem_cons] at hf
    rw [← Except.ok.inj h, List.forall_mem_cons]
    exact ⟨hf.1 y hy, ih hf.2 hys⟩

/-- The filters of a payload, one by one. -/
theorem filters_eq_ok {raw : PyJson} {j : Json} (h : filters lib raw = .ok (ofJson j)) :
    j = .null ∨ ∃ items rawItems, raw = .arr rawItems ∧ j = .arr items
      ∧ rawItems.mapM (filter lib) = .ok (ofItems items) := by
  cases raw with
  | null =>
    have hnull : ofJson .null = ofJson j := Except.ok.inj h
    exact .inl (ofJson_injective hnull).symm
  | arr rawItems =>
    obtain ⟨-, -, h⟩ := bind_eq_ok.mp h
    obtain ⟨ys, hys, h⟩ := bind_eq_ok.mp h
    have hj : PyJson.arr ys = ofJson j := Except.ok.inj h
    cases j with
    | arr items =>
      have hitems : ys = ofItems items := PyJson.arr.inj hj
      rw [hitems] at hys
      exact .inr ⟨items, rawItems, rfl, rfl, hys⟩
    | _ => cases hj
  | _ => cases h

/-- The three fields of a filter are in order already. -/
theorem sorted_filter {raw : PyJson} {j : Json} (h : filter lib raw = .ok (ofJson j)) :
    j.sorted = j := by
  obtain ⟨name, operator', operand, hj, -, -, hcheck, -⟩ := filter_eq_ok h
  obtain ⟨n, o, v, rfl, rfl⟩ := exists_filter hj
  have hoperand := sorted_operand hcheck
  rw [Json.sorted, Json.sortedFields_eq_map]
  simp only [List.map_cons, List.map_nil, hoperand]
  have hfirst : "field" < "operator" := by decide
  have hsecond : "operator" < "value" := by decide
  show Json.obj (insertByKey _ (insertByKey _ (insertByKey _ []))) = _
  rw [insertByKey, insertByKey, if_pos hsecond, insertByKey, if_pos hfirst]
  rfl

/-- The filters have no keys out of order. -/
theorem sorted_filters {raw : PyJson} {j : Json} (h : filters lib raw = .ok (ofJson j)) :
    j.sorted = j := by
  rcases filters_eq_ok h with rfl | ⟨items, rawItems, -, rfl, hitems⟩
  · rfl
  · have hall := forall_of_mapM (p := fun y => ∀ x, ofJson x = y → x.sorted = x)
      (fun raw _ y hy x hx => sorted_filter (hx ▸ hy)) hitems
    have hsame : ∀ x ∈ items, x.sorted = id x := by
      intro x hx
      rw [ofItems_eq_map] at hall
      exact hall (ofJson x) (List.mem_map_of_mem hx) x rfl
    rw [Json.sorted, Json.sortedItems_eq_map, List.map_congr_left hsame, List.map_id]

/-- The expectation has no keys out of order. -/
theorem sorted_expected {raw : PyJson} {rows : ℤ} {names : Option (List PyStr)} {j : Json}
    (h : expectedModified lib raw rows names = .ok (ofJson j)) : j.sorted = j := by
  unfold expectedModified at h
  split at h
  · have hnull : ofJson .null = ofJson j := Except.ok.inj h
    rw [← ofJson_injective hnull]
    rfl
  · obtain ⟨s, -, h⟩ := bind_eq_ok.mp h
    obtain ⟨-, -, h⟩ := bind_eq_ok.mp h
    obtain ⟨text, rfl, -⟩ := ofJson_eq_str (Except.ok.inj h).symm
    rfl

/-- The parts with the keys of their changes in order. -/
def Document.reordered (document : Document) : Document :=
  { document with changes := sortByKey (Json.sortedFields document.changes) }

/-- A document has each field once. -/
theorem nodup_document (document : Document) (dryRun : Bool) :
    (Json.keys (document.fields dryRun)).Nodup := by
  show payloadNames.Nodup
  decide

/-- The text of a payload in normal form is read as a payload with the same parts. -/
theorem holds_sorted {payload : Fields} {dryRun : Bool} {parts : Payload}
    {document : Document} (h : Accepts lib payload dryRun parts)
    (hdocument : document.Describes parts) (dryRun' : Bool) :
    Holds (ofFields (sortByKey (Json.sortedFields (document.fields dryRun'))))
      { parts with changes := ofFields document.reordered.changes } dryRun' := by
  have hread := field_sorted (nodup_document document dryRun')
  have hfilters := h.filters
  have hexpected := h.expected
  rw [← hdocument.filters] at hfilters
  rw [← hdocument.expected] at hexpected
  have hnamesField : Json.get (document.fields dryRun') "document_names" = document.names := rfl
  have hfiltersField : Json.get (document.fields dryRun') "filters" = document.filters := rfl
  have hexpectedField : Json.get (document.fields dryRun') "expected_modified"
      = document.expected := rfl
  refine ⟨sameKeys_sorted rfl, ?_, ?_, ?_, ?_, ?_, ?_, ?_, ?_, ?_⟩
  · rw [hread]
    rfl
  · rw [hread]
    rfl
  · rw [hread, ← hdocument.rows]
    rfl
  · rw [hread, hnamesField, sorted_names hdocument.names, hdocument.names]
  · rw [hread, hfiltersField, sorted_filters hfilters, hdocument.filters]
  · rw [hread]
    rfl
  · rw [hread, hexpectedField, sorted_expected hexpected, hdocument.expected]
  · rw [hread, ← hdocument.doctype]
    rfl
  · rw [hread, ← hdocument.reason]
    rfl

/-- A payload that holds the parts with the changes in another order is accepted with them. -/
theorem accepts_reordered (htexts : LawfulTexts lib) {payload payload' : Fields}
    {dryRun dryRun' : Bool} {parts : Payload} {document : Document}
    (h : Accepts lib payload dryRun parts) (hdocument : document.Describes parts)
    (hholds : Holds payload' { parts with changes := ofFields document.reordered.changes } dryRun') :
    Accepts lib payload' dryRun' { parts with changes := ofFields document.reordered.changes } := by
  have hchanges := h.changes
  rw [← hdocument.changes] at hchanges
  exact accepts_of_holds htexts h (changes_sorted htexts hchanges) hholds

/-! ## Reading a command back -/

/-- What a reader reads of all floats of an object it reads of each field. -/
theorem readsFloats_field {fields : Fields} (h : ReadsFloats R L (.obj fields)) (key : String) :
    ReadsFloats R L (field fields key) := by
  have hall := readsFloatFields_iff.mp h
  rw [field, field?]
  cases hlookup : fields.lookup (PyStr.ofString key) with
  | none => trivial
  | some x =>
    obtain ⟨l₁, l₂, hsplit, -⟩ := List.lookup_eq_some_iff.mp hlookup
    exact hall (PyStr.ofString key, x) (by rw [hsplit]; simp)

/-- A value that was accepted can be read back wherever there is room for its own depth. -/
theorem readable_value (htexts : LawfulTexts lib) (hdigits : 38 ≤ L.intDigits) {raw : PyJson}
    {j : Json} (h : value lib raw = .ok (ofJson j)) (hfloats : ReadsFloats R L raw) {left : ℕ}
    (hleft : 9 ≤ left) : Reader.Readable R L j left := by
  obtain ⟨hadmits, -, hnormal⟩ := value_eq_ok.mp h
  have hallowed : Admits lib (ofJson j) 0 := by
    rw [hnormal]
    exact admits_normal htexts raw hadmits
  have hread : ReadsFloats R L (ofJson j) := by
    rw [hnormal]
    exact readsFloats_normal raw hfloats
  exact readable_of_admits hdigits j hallowed hread (by omega)

/-- A filter can be read back ten levels down. -/
theorem readable_filter (htexts : LawfulTexts lib) (hdigits : 38 ≤ L.intDigits) {raw : PyJson}
    {j : Json} (h : filter lib raw = .ok (ofJson j)) (hfloats : ReadsFloats R L raw) {left : ℕ}
    (hleft : 10 ≤ left) : Reader.Readable R L j left := by
  unfold filter at h
  split at h
  · rename_i item
    obtain ⟨-, -, h⟩ := bind_eq_ok.mp h
    obtain ⟨operator', -, h⟩ := bind_eq_ok.mp h
    obtain ⟨operand, hoperand, h⟩ := bind_eq_ok.mp h
    obtain ⟨-, -, h⟩ := bind_eq_ok.mp h
    obtain ⟨name, -, h⟩ := bind_eq_ok.mp h
    obtain ⟨n, o, v, rfl, rfl⟩ := exists_filter (Except.ok.inj h).symm
    have hvalue : Reader.Readable R L v (left - 1) :=
      readable_value htexts hdigits hoperand (readsFloats_field hfloats "value") (by omega)
    have hkeys : (Json.keys [("field", Json.str n), ("operator", .str o), ("value", v)]).Nodup := by
      show filterNames.Nodup
      decide
    exact ⟨by omega, hkeys, trivial, trivial, hvalue, trivial⟩
  · cases h

/-- The filters can be read back, one level more. -/
theorem readable_filters (htexts : LawfulTexts lib) (hdigits : 38 ≤ L.intDigits) {raw : PyJson}
    {j : Json} (h : filters lib raw = .ok (ofJson j)) (hfloats : ReadsFloats R L raw) {left : ℕ}
    (hleft : 11 ≤ left) : Reader.Readable R L j left := by
  rcases filters_eq_ok h with rfl | ⟨items, rawItems, rfl, rfl, hitems⟩
  · trivial
  · have hrawFloats := readsFloatItems_iff.mp hfloats
    have hall := forall_of_mapM (p := fun y => ∀ x, ofJson x = y → Reader.Readable R L x (left - 1))
      (fun raw hraw y hy x hx =>
        readable_filter htexts hdigits (hx ▸ hy) (hrawFloats raw hraw) (by omega)) hitems
    rw [ofItems_eq_map] at hall
    refine ⟨by omega, (Reader.readableItems_iff R L).mpr fun x hx => ?_⟩
    exact hall (ofJson x) (List.mem_map_of_mem hx) x rfl

/-- The values of the changes come from values of the raw ones. -/
theorem changedFields_values {items done out : Fields} (h : changedFields lib done items = .ok out) :
    ∀ f ∈ out, f ∈ done ∨ ∃ g ∈ items, value lib g.2 = .ok f.2 := by
  induction items generalizing done with
  | nil =>
    rw [← Except.ok.inj h]
    exact fun f hf => .inl hf
  | cons g rest ih =>
    obtain ⟨key, -, h⟩ := bind_eq_ok.mp h
    obtain ⟨x, hx, h⟩ := bind_eq_ok.mp h
    intro f hf
    rcases ih h f hf with hset | ⟨g', hg', hvalue⟩
    · rcases mem_setItem hset with rfl | hdone
      · exact .inr ⟨g, List.mem_cons_self, hx⟩
      · exact .inl hdone
    · exact .inr ⟨g', List.mem_cons_of_mem g hg', hvalue⟩

/-- The changes can be read back ten levels down. -/
theorem readable_changes (htexts : LawfulTexts lib) (hdigits : 38 ≤ L.intDigits) {raw : PyJson}
    {fields : List (String × Json)} (h : changes lib raw = .ok (ofFields fields))
    (hfloats : ReadsFloats R L raw) {left : ℕ} (hleft : 10 ≤ left) :
    Reader.Readable R L (.obj fields) left := by
  have hnodup := (changes_eq_ok htexts h).1.nodup
  unfold changes at h
  split at h
  · rename_i items
    obtain ⟨-, -, h⟩ := bind_eq_ok.mp h
    have hrawFloats := readsFloatFields_iff.mp hfloats
    rw [keys_ofFields] at hnodup
    refine ⟨by omega, hnodup.of_map _, (Reader.readableFields_iff R L).mpr fun f hf => ?_⟩
    have hmem : (PyStr.ofString f.1, ofJson f.2) ∈ ofFields fields := by
      rw [ofFields_eq_map]
      exact List.mem_map_of_mem hf
    rcases changedFields_values h _ hmem with hnil | ⟨g, hg, hvalue⟩
    · cases hnil
    · exact readable_value htexts hdigits hvalue (hrawFloats g hg) (by omega)
  · cases h

/-- The names can be read back one level down. -/
theorem readable_names {names : Option (List PyStr)} {j : Json} (h : ofJson j = namesJson names)
    {left : ℕ} (hleft : 1 ≤ left) : Reader.Readable R L j left := by
  cases j with
  | arr items =>
    refine ⟨hleft, (Reader.readableItems_iff R L).mpr fun x hx => ?_⟩
    cases names with
    | none => cases h
    | some names =>
      have hitems : ofItems items = names.map .str := PyJson.arr.inj h
      rw [ofItems_eq_map] at hitems
      have hmem : ofJson x ∈ names.map PyJson.str := hitems ▸ List.mem_map_of_mem hx
      obtain ⟨s, -, hs⟩ := List.mem_map.mp hmem
      obtain ⟨text, rfl, -⟩ := ofJson_eq_str hs.symm
      trivial
  | obj fields => cases names <;> cases h
  | int n => cases names <;> cases h
  | float x => cases names <;> cases h
  | _ => trivial

/-- The expectation can be read back at any depth. -/
theorem readable_expected {raw : PyJson} {rows : ℤ} {names : Option (List PyStr)} {j : Json}
    (h : expectedModified lib raw rows names = .ok (ofJson j)) (left : ℕ) :
    Reader.Readable R L j left := by
  unfold expectedModified at h
  split at h
  · have hnull : ofJson .null = ofJson j := Except.ok.inj h
    rw [← ofJson_injective hnull]
    trivial
  · obtain ⟨s, -, h⟩ := bind_eq_ok.mp h
    obtain ⟨-, -, h⟩ := bind_eq_ok.mp h
    obtain ⟨text, rfl, -⟩ := ofJson_eq_str (Except.ok.inj h).symm
    trivial

/-- A payload in normal form can be read back. -/
theorem readable_payload (htexts : LawfulTexts lib) (hdigits : 38 ≤ L.intDigits) {payload : Fields}
    {dryRun : Bool} {parts : Payload} {document : Document} (h : Accepts lib payload dryRun parts)
    (hdocument : document.Describes parts) (hfloats : ReadsFloats R L (.obj payload))
    (dryRun' : Bool) {left : ℕ} (hleft : 12 ≤ left) :
    Reader.Readable R L (.obj (document.fields dryRun')) left := by
  have hfilters := h.filters
  have hchanges := h.changes
  have hexpected := h.expected
  rw [← hdocument.filters] at hfilters
  rw [← hdocument.changes] at hchanges
  rw [← hdocument.expected] at hexpected
  have hrows : Reader.intDigitCount document.rows ≤ L.intDigits := by
    have hbound : document.rows.natAbs ≤ 10 ^ 38 - 1 := by
      have hraw := h.rows
      unfold maximumRows at hraw
      split at hraw
      · split at hraw
        · rename_i hrange
          rw [hdocument.rows, ← Except.ok.inj hraw]
          omega
        · cases hraw
      · cases hraw
    exact (intDigitCount_le hbound).trans hdigits
  refine ⟨by omega, nodup_document document dryRun', trivial, trivial,
    readable_names hdocument.names (by omega), ?_, ?_, readable_expected hexpected _, trivial,
    hrows, trivial, trivial⟩
  · exact readable_filters htexts hdigits hfilters (readsFloats_field hfloats "filters") (by omega)
  · exact readable_changes htexts hdigits hchanges (readsFloats_field hfloats "changes") (by omega)

/-! ## Commands -/

/-- A command in normal form, without surrogates. -/
def commandDocument (policy : String) (payload : List (String × Json)) : List (String × Json) :=
  [("policy_id", .str policy), ("payload", .obj payload)]

/-- A command document has the fields of its command. -/
theorem ofFields_command (policy : String) (payload : List (String × Json)) :
    ofFields (commandDocument policy payload)
      = commandFields (.ofString policy) (ofFields payload) := rfl

/-- A command of real strings is a document. -/
theorem toFields?_command (policy : String) (payload : List (String × Json)) :
    toFields? (commandFields (.ofString policy) (ofFields payload))
      = some (commandDocument policy payload) := by
  rw [← ofFields_command, toFields?_ofFields]

/-- The reordered document describes the parts with their changes reordered. -/
theorem describes_reordered {document : Document} {parts : Payload}
    (h : document.Describes parts) :
    document.reordered.Describes { parts with changes := ofFields document.reordered.changes } where
  doctype := h.doctype
  names := h.names
  filters := h.filters
  changes := rfl
  expected := h.expected
  rows := h.rows
  reason := h.reason

/-- The reordered payload has the same text. -/
theorem dumps_reordered {document : Document} (h : (Json.obj document.changes).Distinct)
    (dryRun : Bool) : R.dumps (.obj (document.reordered.fields dryRun))
      = R.dumps (.obj (document.fields dryRun)) := by
  have hchanges : R.dumps (.obj document.reordered.changes) = R.dumps (.obj document.changes) :=
    R.dumps_sorted (.obj document.changes) h
  rw [R.dumps_obj, R.dumps_obj, R.dumpsFields_eq_map, R.dumpsFields_eq_map]
  simp only [Document.fields, List.map_cons, hchanges]
  rfl

/-- Two commands with one payload text have one text. -/
theorem dumps_command {policy : String} {payload payload' : List (String × Json)}
    (h : R.dumps (.obj payload') = R.dumps (.obj payload)) :
    R.dumps (.obj (commandDocument policy payload'))
      = R.dumps (.obj (commandDocument policy payload)) := by
  rw [R.dumps_obj, R.dumps_obj, R.dumpsFields_eq_map, R.dumpsFields_eq_map]
  simp only [commandDocument, List.map_cons, h]

/-- Reordering the changes leaves the sorted payload as it is. -/
theorem sorted_reordered {document : Document} (h : (Json.obj document.changes).Distinct)
    (dryRun : Bool) : (Json.obj (document.reordered.fields dryRun)).sorted
      = (Json.obj (document.fields dryRun)).sorted := by
  have hchanges : (Json.obj document.reordered.changes).sorted
      = (Json.obj document.changes).sorted :=
    Reader.sorted_sorted (.obj document.changes) h
  rw [Json.sorted, Json.sorted, Json.sortedFields_eq_map, Json.sortedFields_eq_map]
  simp only [Document.fields, List.map_cons, hchanges]
  rfl

/-- Two commands with one sorted payload are the same sorted. -/
theorem sorted_command {policy : String} {payload payload' : List (String × Json)}
    (h : (Json.obj payload').sorted = (Json.obj payload).sorted) :
    (Json.obj (commandDocument policy payload')).sorted
      = (Json.obj (commandDocument policy payload)).sorted := by
  rw [Json.sorted, Json.sorted, Json.sortedFields_eq_map, Json.sortedFields_eq_map]
  simp only [commandDocument, List.map_cons, h]

/-- A command whose fields are in normal form, in some order. -/
theorem normalizeCommand_of {operation : String} (hoperation : operation ∈ operations)
    {command : Fields} {policy : PyStr} {payload out : Fields} {dryRun : Bool}
    (hkeys : sameKeys command commandNames = true)
    (hpolicy : field command "policy_id" = .str policy) (hlegal : policyId (.str policy) = .ok policy)
    (hpayload : field command "payload" = .obj payload)
    (hnormal : normalizePayload lib R (.obj payload) dryRun = .ok out) :
    normalizeCommand lib R operation (.obj command) dryRun = .ok (commandFields policy out) := by
  refine normalizeCommand_eq_ok.mpr ⟨command, policy, out, rfl, hoperation, hkeys, ?_, ?_, rfl⟩
  · rw [hpolicy]
    exact hlegal
  · rw [hpayload]
    exact hnormal

/-- A command has the two keys of its contract. -/
theorem sameKeys_command (policy : PyStr) (payload : Fields) :
    sameKeys (commandFields policy payload) commandNames = true := by
  apply sameKeys_of_perm
  rfl

/-- The policy of a command is read back. -/
theorem policy_command (policy : PyStr) (payload : Fields) :
    field (commandFields policy payload) "policy_id" = .str policy := by
  rw [commandFields, field_cons, if_pos rfl]

/-- The payload of a command is read back. -/
theorem payload_command (policy : PyStr) (payload : Fields) :
    field (commandFields policy payload) "payload" = .obj payload := by
  rw [commandFields, field_cons, if_neg (by decide), field_cons, if_pos rfl]

/-- An accepted policy id is accepted again. -/
theorem policyId_stable {raw : PyJson} {policy : PyStr} (h : policyId raw = .ok policy) :
    policyId (.str policy) = .ok policy := by
  rw [policyId_eq_ok h] at h
  exact h

/-- The parts of a command that was accepted, and its documents. -/
theorem normalized_parts {operation : String} {raw : PyJson} {dryRun : Bool} {command : Fields}
    (h : normalizeCommand lib R operation raw dryRun = .ok command) :
    ∃ (policy : PyStr) (payload : Fields) (parts : Payload) (document : Document) (fields : Fields),
      operation ∈ operations ∧ policyId (.str policy) = .ok policy
        ∧ raw = .obj fields ∧ field fields "payload" = .obj payload
        ∧ Accepts lib payload dryRun parts ∧ document.Describes parts
        ∧ utf8Length (R.dumps (.obj (document.fields dryRun))) ≤ 128 * 1024
        ∧ command = commandFields policy (parts.fields dryRun) := by
  obtain ⟨fields, policy, out, rfl, hoperation, -, hpolicy, hpayload, rfl⟩ :=
    normalizeCommand_eq_ok.mp h
  obtain ⟨payload, parts, hraw, haccepts, ⟨doc, hdoc, hsize⟩, rfl⟩ :=
    normalizePayload_eq_ok.mp hpayload
  obtain ⟨document, hdocument, rfl⟩ := exists_document hdoc
  exact ⟨policy, payload, parts, document, fields, hoperation, policyId_stable hpolicy, rfl, hraw,
    haccepts, hdocument, hsize, rfl⟩

/-- Parts that are accepted make a payload that is accepted, where its text is not too long. -/
theorem normalizePayload_of {payload : Fields} {dryRun : Bool} {parts : Payload}
    {document : Document} (h : Accepts lib payload dryRun parts) (hdocument : document.Describes parts)
    (hsize : utf8Length (R.dumps (.obj (document.fields dryRun))) ≤ 128 * 1024) :
    normalizePayload lib R (.obj payload) dryRun = .ok (parts.fields dryRun) := by
  refine normalizePayload_eq_ok.mpr ⟨payload, parts, rfl, h, ⟨document.fields dryRun, ?_, hsize⟩, rfl⟩
  rw [← hdocument.ofFields, toFields?_ofFields]

/-- A command that was accepted is accepted again and is its own normal form. -/
theorem normalizeCommand_stable (htexts : LawfulTexts lib) {operation : String} {raw : PyJson}
    {dryRun : Bool} {command : Fields}
    (h : normalizeCommand lib R operation raw dryRun = .ok command) :
    normalizeCommand lib R operation (.obj command) dryRun = .ok command := by
  obtain ⟨policy, payload, parts, document, fields, hoperation, hpolicy, rfl, hpayload, haccepts,
    hdocument, hsize, rfl⟩ := normalized_parts h
  have hagain : Accepts lib (parts.fields dryRun) dryRun parts :=
    accepts_of_holds htexts haccepts (changes_stable htexts haccepts.changes)
      (holds_fields parts dryRun)
  exact normalizeCommand_of hoperation (sameKeys_command policy _) (policy_command policy _) hpolicy
    (payload_command policy _) (normalizePayload_of hagain hdocument hsize)

/-- The hash of fields that can be encoded is that of their canonical text. -/
theorem canonicalHash_of {fields : Fields} {document : List (String × Json)}
    (h : toFields? fields = some document) :
    canonicalHash R fields = .ok (R.sha256 (R.dumps (.obj document))) := by
  rw [canonicalHash, encoded, h]
  rfl

/-- Two commands that differ in the order of their keys only, and so have one hash. -/
structure SameCommand (R : Runtime) (command command' : Fields) : Prop where
  documents : ∃ document document', toFields? command = some document
    ∧ toFields? command' = some document'
    ∧ (Json.obj document').sorted = (Json.obj document).sorted
  hash : canonicalHash R command' = canonicalHash R command
  payloadHash : ∃ payload payload', field command "payload" = .obj payload
    ∧ field command' "payload" = .obj payload'
    ∧ canonicalHash R payload' = canonicalHash R payload

/-- The canonical text of a command that was accepted is read, and what is read is accepted as the
same command. -/
theorem normalizeCommand_reloaded (htexts : LawfulTexts lib) (hdepth : 13 ≤ L.depth)
    (hdigits : 38 ≤ L.intDigits) {operation : String} {raw : PyJson} {dryRun : Bool}
    {command : Fields} (hfloats : ReadsFloats R L raw)
    (h : normalizeCommand lib R operation raw dryRun = .ok command) :
    ∃ document reloaded command', toFields? command = some document
      ∧ L.loads Reader.dict (R.dumps (.obj document)) = .ok reloaded
      ∧ reloaded = ofJson (Json.obj document).sorted
      ∧ normalizeCommand lib R operation reloaded dryRun = .ok command'
      ∧ SameCommand R command command' := by
  obtain ⟨policy, payload, parts, document, fields, hoperation, hpolicy, rfl, hpayload, haccepts,
    hdocument, hsize, rfl⟩ := normalized_parts h
  -- what the pattern of a policy id matches is a real string
  have hpolicyText : ∃ text, PyStr.ofString text = policy := by
    have hlegal := hpolicy
    simp only [policyId] at hlegal
    split at hlegal
    · rename_i hmatch
      rw [PyStr.fullmatch] at hmatch
      cases htext : policy.toString? with
      | none =>
        rw [htext] at hmatch
        cases hmatch
      | some text => exact ⟨text, PyStr.ofString_of_toString? htext⟩
    · cases hlegal
  obtain ⟨policyText, rfl⟩ := hpolicyText
  have hpayloadFloats : ReadsFloats R L (.obj payload) := hpayload ▸ readsFloats_field hfloats "payload"
  -- a command adds two levels to its payload, so thirteen are enough
  have hreadable : Reader.Readable R L (.obj (commandDocument policyText (document.fields dryRun)))
      L.depth := by
    refine ⟨by omega, ?_, trivial, ?_, trivial⟩
    · show commandNames.Nodup
      decide
    · exact readable_payload htexts hdigits haccepts hdocument hpayloadFloats dryRun (by omega)
  have hdistinct : (Json.obj document.changes).Distinct := by
    have hchanges := haccepts.changes
    rw [← hdocument.changes] at hchanges
    exact Reader.distinct_of_readable R L _ (readable_changes htexts hdigits hchanges
      (readsFloats_field hpayloadFloats "changes") (Nat.le_refl 10))
  have hkeys : (Json.keys (commandDocument policyText (document.fields dryRun))).Nodup := by
    show commandNames.Nodup
    decide
  -- what is read has its keys in order, the changes included, and is accepted as the same parts
  have hagain := accepts_reordered htexts haccepts hdocument
    (holds_sorted haccepts hdocument dryRun)
  have hsize' : utf8Length (R.dumps (.obj (document.reordered.fields dryRun))) ≤ 128 * 1024 := by
    rw [dumps_reordered hdistinct]
    exact hsize
  have hnormal := normalizePayload_of hagain (describes_reordered hdocument) hsize'
  have htext := toFields?_command policyText (document.fields dryRun)
  have htext' := toFields?_command policyText (document.reordered.fields dryRun)
  rw [hdocument.ofFields] at htext
  rw [(describes_reordered hdocument).ofFields] at htext'
  -- the reloaded command is normalized to the fields with the changes in that order
  refine ⟨commandDocument policyText (document.fields dryRun), _,
    commandFields (.ofString policyText)
      ({ parts with changes := ofFields document.reordered.changes : Payload }.fields dryRun),
    htext, Reader.loads_dumps Reader.keeps_dict hreadable, rfl, ?_, ?_⟩
  · refine normalizeCommand_of hoperation (sameKeys_sorted rfl) ?_ hpolicy ?_ hnormal
    · rw [field_sorted hkeys]
      rfl
    · rw [field_sorted hkeys]
      rfl
  · refine ⟨⟨_, _, htext, htext', sorted_command (sorted_reordered hdistinct dryRun)⟩, ?_,
      _, _, payload_command _ _, payload_command _ _, ?_⟩
    · rw [canonicalHash_of htext, canonicalHash_of htext',
        dumps_command (dumps_reordered hdistinct dryRun)]
    · rw [← hdocument.ofFields, ← (describes_reordered hdocument).ofFields,
        canonicalHash_of (toFields?_ofFields _), canonicalHash_of (toFields?_ofFields _),
        dumps_reordered hdistinct]

/-! ## Stored commands -/

/-- A stored command is authorized exactly where it normalizes to a document. -/
theorem validator_eq_ok {preview : Bool} {operation : String} {payload : List (String × Json)}
    {authorization : OperationAuthoring.PayloadAuthorization} :
    validator lib R preview operation payload = .ok authorization ↔
      ∃ command, normalizeCommand lib R operation (.obj (ofFields payload)) preview = .ok command
        ∧ ∃ fields, toFields? command = some fields
          ∧ authorization = {
            normalizedPayload := fields, siteRequired := true, destructive := false
            preOperationBackup := false, approvalRequired := !preview
            payloadContainsSiteIdentity := false, preApprovalPreview := preview } := by
  unfold validator
  cases hcommand : normalizeCommand lib R operation (.obj (ofFields payload)) preview with
  | error fault => simp
  | ok command =>
    cases hfields : toFields? command with
    | none => simp [hfields]
    | some fields => simp [hfields, eq_comm]

/-- The hash of a stored command, recomputed from what is read of it. -/
theorem stored_hash (htexts : LawfulTexts lib) (hdepth : 13 ≤ L.depth) (hdigits : 38 ≤ L.intDigits)
    (hloads : R.loads = L.json?) {preview : Bool} {request : OperationAuthoring.OperationRequest}
    {actor : String} {db : Database} {result : OperationAuthoring.AuthoredOperation}
    (hfloats : ReadsFloats R L (.obj (ofFields request.payload)))
    (h : OperationAuthoring.authored R (validator lib R preview) request actor db = .ok result) :
    ∃ stored command', R.loads result.payloadJson = some (.obj stored)
      ∧ normalizeCommand lib R result.operationType (.obj (ofFields stored)) preview = .ok command'
      ∧ canonicalHash R command' = .ok result.payloadHash := by
  obtain ⟨htype, authorization, hvalidated, hpayload⟩ := LifecycleAuthoring.authored_payload h
  obtain ⟨command, hcommand, fields, hfields, rfl⟩ := validator_eq_ok.mp hvalidated
  obtain ⟨-, -, -, htext, hhash⟩ := LifecycleAuthoring.canonicalPayload_eq_ok.mp hpayload
  obtain ⟨document, reloaded, command', hdocument, hread, rfl, hagain, hsame⟩ :=
    normalizeCommand_reloaded htexts hdepth hdigits hfloats hcommand
  rw [hfields] at hdocument
  obtain rfl := Option.some.inj hdocument
  rw [Json.sorted] at hagain hread
  refine ⟨sortByKey (Json.sortedFields fields), command', ?_, ?_, ?_⟩
  · rw [hloads, htext, Reader.json?, hread]
    exact toJson?_ofJson _
  · rw [htype]
    exact hagain
  · rw [hsame.hash, canonicalHash_of hfields, hhash]

/-- Normalization is idempotent, directly and through the canonical text, so the hash that is
recomputed from a stored command is the stored one. -/
theorem normalization_idempotent (htexts : LawfulTexts lib) :
    (∀ operation raw dryRun command, normalizeCommand lib R operation raw dryRun = .ok command →
      normalizeCommand lib R operation (.obj command) dryRun = .ok command)
    ∧ ∀ L : Reader, 13 ≤ L.depth → 38 ≤ L.intDigits →
      (∀ operation raw dryRun command, ReadsFloats R L raw →
        normalizeCommand lib R operation raw dryRun = .ok command →
        ∃ document reloaded command', toFields? command = some document
          ∧ L.loads Reader.dict (R.dumps (.obj document)) = .ok reloaded
          ∧ normalizeCommand lib R operation reloaded dryRun = .ok command'
          ∧ SameCommand R command command')
      ∧ (R.loads = L.json? → ∀ preview request actor db result,
        ReadsFloats R L (.obj (ofFields request.payload)) →
        OperationAuthoring.authored R (validator lib R preview) request actor db = .ok result →
        ∃ stored command', R.loads result.payloadJson = some (.obj stored)
          ∧ normalizeCommand lib R result.operationType (.obj (ofFields stored)) preview
            = .ok command'
          ∧ canonicalHash R command' = .ok result.payloadHash) := by
  refine ⟨fun operation raw dryRun command h => normalizeCommand_stable htexts h,
    fun L hdepth hdigits => ⟨?_, ?_⟩⟩
  · intro operation raw dryRun command hfloats h
    obtain ⟨document, reloaded, command', hdocument, hread, -, hagain, hsame⟩ :=
      normalizeCommand_reloaded htexts hdepth hdigits hfloats h
    exact ⟨document, reloaded, command', hdocument, hread, hagain, hsame⟩
  · intro hloads preview request actor db result hfloats h
    exact stored_hash htexts hdepth hdigits hloads hfloats h

namespace Sample

/-- `s.casefold()` of ASCII. -/
def asciiLower (s : PyStr) : PyStr :=
  s.map fun c => if 65 ≤ c.val ∧ c.val ≤ 90 then Fin.ofNat 0x110000 (c.val + 32) else c

/-- The instant below a bound that a text in normal form stands for. -/
def instant? (bound : ℕ) (s : PyStr) : Option ℕ :=
  (List.range bound).find? fun micros => s == utcOffset (.ofString (DateTime.rfc3339 ⟨micros⟩))

/-- The microseconds of the calendar. -/
@[irreducible] def calendar : ℕ := 3652059 * 86400000000

def isoTime : Option ℕ → IsoTime
  | some micros => .aware (some ⟨micros⟩)
  | none => .invalid

/-- Unicode on ASCII, and the instants in normal form. -/
def texts : TextLibrary where
  lower := asciiLower
  casefold := asciiLower
  idna s := some s
  nfc s := s
  fromisoformat s := isoTime (instant? calendar s)

/-- A text that stands for an instant is the normal form of it. -/
theorem instant?_eq_some {bound : ℕ} {s : PyStr} {micros : ℕ} (h : instant? bound s = some micros) :
    micros < bound ∧ s = utcOffset (.ofString (DateTime.rfc3339 ⟨micros⟩)) := by
  rw [instant?] at h
  have hsame := List.find?_some h
  exact ⟨List.mem_range.mp (List.mem_of_find?_eq_some h), eq_of_beq hsame⟩

/-- The normal form of an instant below the bound stands for one. -/
theorem instant?_isSome {bound : ℕ} {utc : DateTime} (h : utc.micros < bound) :
    ∃ micros, instant? bound (utcOffset (.ofString utc.rfc3339)) = some micros := by
  apply Option.isSome_iff_exists.mp
  rw [instant?, List.find?_isSome]
  exact ⟨utc.micros, List.mem_range.mpr h, beq_self_eq_true _⟩

/-- The instants of the calendar are those below its bound. -/
theorem representable_iff {utc : DateTime} : utc.representable = true ↔ utc.micros < calendar := by
  unfold calendar
  exact decide_eq_true_iff

/-- The sample texts keep the laws. -/
theorem lawfulTexts : LawfulTexts texts where
  nfc_nfc _ := rfl
  nfc_ascii _ _ := rfl
  representable s utc h := by
    have hiso : isoTime (instant? calendar s) = .aware (some utc) := h
    cases hfound : instant? calendar s with
    | none =>
      rw [hfound] at hiso
      cases hiso
    | some micros =>
      rw [hfound] at hiso
      obtain rfl := Option.some.inj (IsoTime.aware.inj hiso)
      exact representable_iff.mpr (instant?_eq_some hfound).1
  reads utc h := by
    obtain ⟨micros, hmicros⟩ := instant?_isSome (representable_iff.mp h)
    obtain ⟨hbound, hsame⟩ := instant?_eq_some hmicros
    have hutc : utc = ⟨micros⟩ := stamp_injective h (representable_iff.mpr hbound) hsame
    show isoTime (instant? calendar (utcOffset (.ofString utc.rfc3339))) = _
    rw [hmicros, hutc]
    rfl

/-- An update of two invoices. -/
def parts (changes : Fields) : Payload where
  doctype := .ofString "Sales Invoice"
  names := some [.ofString "SINV-1", .ofString "SINV-2"]
  filters := .null
  changes := changes
  expected := .null
  rows := 2
  reason := .ofString "month end"

/-- The texts of the samples pass their checks. -/
theorem checked_texts :
    documentNames texts (.arr [.str (.ofString "SINV-1"), .str (.ofString "SINV-2")])
        = .ok (some [.ofString "SINV-1", .ofString "SINV-2"])
      ∧ doctype texts (.str (.ofString "Sales Invoice")) = .ok (.ofString "Sales Invoice")
      ∧ trimmedText texts 500 (.str (.ofString "month end")) = .ok (.ofString "month end")
      ∧ policyId (.str (.ofString "local.policy")) = .ok (.ofString "local.policy") := by
  decide +kernel

/-- Fields that are no identity of a document. -/
def updatable : List String := ["status", "details", "note_a", "note_b", "note_c", "note_d"]

/-- The updatable fields differ and pass their check. -/
theorem checked_names : (updatable.map PyStr.ofString).Nodup ∧ ∀ name ∈ updatable,
    fieldName texts (.str (.ofString name)) = .ok (.ofString name) := by
  decide +kernel

/-- An update of settled fields is accepted. -/
theorem accepts_parts {changed : Fields} (h : Settled texts changed) (hne : changed ≠ [])
    (hlength : changed.length ≤ 32) (dryRun : Bool) :
    Accepts texts ((parts changed).fields dryRun) dryRun (parts changed) := by
  have hholds := holds_fields (parts changed) dryRun
  obtain ⟨hnames, hdoctype, hreason, -⟩ := checked_texts
  refine ⟨hholds.keys, hholds.version, hholds.dry, ?_, ?_, ?_, ?_, ?_, ?_, ?_, ?_⟩
  · rw [hholds.rows]
    rfl
  · rw [hholds.names, hholds.filters]
    rfl
  · rw [hholds.names]
    exact hnames
  · rw [hholds.filters]
    rfl
  · rw [hholds.changes]
    exact changes_settled h hne hlength
  · rw [hholds.expected]
    rfl
  · rw [hholds.doctype]
    exact hdoctype
  · rw [hholds.reason]
    exact hreason

/-- A status, and details whose keys are not in order. -/
def changed : Fields :=
  [(.ofString "status", .str (.ofString "Paid")),
    (.ofString "details", .obj [(.ofString "b", .arr [.int 1]), (.ofString "a", .null)])]

/-- The sample changes are settled. -/
theorem settled_changed : Settled texts changed where
  names := by
    have hstatus := checked_names.2 "status" (.head _)
    have hdetails := checked_names.2 "details" (.tail _ (.head _))
    exact List.forall_mem_cons.mpr ⟨hstatus, List.forall_mem_singleton.mpr hdetails⟩
  values := by
    have hstatus : value texts (.str (.ofString "Paid")) = .ok (.str (.ofString "Paid")) := by
      refine value_eq_ok.mpr ⟨⟨by decide, ?_⟩, by decide, rfl⟩
      decide +kernel
    obtain ⟨hfirst, hsecond⟩ : nestedKey texts [] (.ofString "b") = .ok () ∧
        nestedKey texts [.ofString "b"] (.ofString "a") = .ok () := by decide +kernel
    have hdetails : value texts (.obj [(.ofString "b", .arr [.int 1]), (.ofString "a", .null)])
        = .ok (.obj [(.ofString "b", .arr [.int 1]), (.ofString "a", .null)]) := by
      refine value_eq_ok.mpr ⟨⟨by decide, by decide, hfirst, ⟨by decide, by decide, ?_, trivial⟩,
        hsecond, ⟨by decide, rfl⟩, trivial⟩, by decide, rfl⟩
      exact ⟨by decide, by decide⟩
    exact List.forall_mem_cons.mpr ⟨hstatus, List.forall_mem_singleton.mpr hdetails⟩
  nodup := by
    have hfirst : [PyStr.ofString "status", .ofString "details"].Sublist
        (updatable.map PyStr.ofString) := List.sublist_append_left _ _
    exact checked_names.1.sublist hfirst

/-- A preview that names its documents. -/
def command (dryRun : Bool) : Fields :=
  commandFields (.ofString "local.policy") ((parts changed).fields dryRun)

def document : Document where
  doctype := "Sales Invoice"
  names := .arr [.str "SINV-1", .str "SINV-2"]
  filters := .null
  changes := [("status", .str "Paid"), ("details", .obj [("b", .arr [.int 1]), ("a", .null)])]
  expected := .null
  rows := 2
  reason := "month end"

/-- The sample document describes the sample parts. -/
theorem describes_document : document.Describes (parts changed) :=
  ⟨rfl, rfl, rfl, rfl, rfl, rfl, rfl⟩

/-- The sample document is far below the size limit. -/
theorem length_document (dryRun : Bool) :
    utf8Length (LifecycleAuthoring.Sample.runtime.dumps (.obj (document.fields dryRun)))
      < 128 * 1024 := by
  cases dryRun <;> decide +kernel

/-- The sample command is its own normal form. -/
theorem command_accepted (dryRun : Bool) :
    normalizeCommand texts LifecycleAuthoring.Sample.runtime "data.update" (.obj (command dryRun))
      dryRun = .ok (command dryRun) := by
  have haccepts := accepts_parts settled_changed (List.cons_ne_nil _ _) (by decide) dryRun
  exact normalizeCommand_of (by decide) (sameKeys_command _ _) (policy_command _ _)
    checked_texts.2.2.2 (payload_command _ _)
    (normalizePayload_of haccepts describes_document (length_document dryRun).le)

def reader : Reader where
  depth := 990
  intDigits := 4300
  readFloat _ := .nan

end Sample

/-- A preview is its own normal form, and its text is read as the same preview. -/
theorem normalization_idempotent_sample :
    normalizeCommand Sample.texts LifecycleAuthoring.Sample.runtime "data.update"
        (.obj (Sample.command true)) true = .ok (Sample.command true)
      ∧ ∃ document reloaded command', toFields? (Sample.command true) = some document
        ∧ Sample.reader.loads Reader.dict (LifecycleAuthoring.Sample.runtime.dumps (.obj document))
          = .ok reloaded
        ∧ normalizeCommand Sample.texts LifecycleAuthoring.Sample.runtime "data.update" reloaded true
          = .ok command'
        ∧ SameCommand LifecycleAuthoring.Sample.runtime (Sample.command true) command' := by
  obtain ⟨hagain, hreload⟩ := normalization_idempotent (R := LifecycleAuthoring.Sample.runtime)
    Sample.lawfulTexts
  obtain ⟨hread, -⟩ := hreload Sample.reader (by decide) (by decide)
  refine ⟨hagain "data.update" _ true _ (Sample.command_accepted true), ?_⟩
  apply hread "data.update" (.obj (Sample.command true)) true (Sample.command true)
  · simp [Sample.command, commandFields, Payload.fields, Sample.parts, Sample.changed, namesJson,
      ReadsFloats, ReadsFloatFields, ReadsFloatItems]
  · exact Sample.command_accepted true

end DataUpdateAuthoring

end FrappeController
