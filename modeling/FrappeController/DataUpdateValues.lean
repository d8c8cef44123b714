import FrappeController.DataUpdateAuthoring
import FrappeController.JsonRoundTrip
import FrappeController.LifecyclePayloads
import FrappeController.Timestamps

/-!
# Normal forms of data updates

`_value` rewrites the strings of a value and keeps everything else, so that what it accepts is
described without its budget (`Admits`, `nodes`, `normal`). From that a normalized command
normalizes to itself, read directly or from its canonical text.
-/

namespace FrappeController
namespace DataUpdateAuthoring

open PyJson
open Reader (keys_ofFields)
open Transaction (bind_eq_ok)

variable {lib : TextLibrary} {R : Runtime} {L : Reader}

/-- A check passes exactly when its condition holds, whatever its message. -/
@[simp] theorem requireWith_eq_ok {message : String} {condition : Bool} {u : Unit} :
    requireWith message condition = .ok u ↔ condition = true := by
  cases condition with
  | false => exact ⟨nofun, nofun⟩
  | true => exact ⟨fun _ => rfl, fun _ => rfl⟩

/-- A check passes exactly when its condition holds. -/
@[simp] theorem require_eq_ok {condition : Bool} {u : Unit} :
    require condition = .ok u ↔ condition = true := requireWith_eq_ok

/-- The tables are those of Unicode and of the calendar: NFC is idempotent and keeps ASCII, an
instant is one `datetime` can hold, and what `isoformat` writes of it is read as it. -/
structure LawfulTexts (lib : TextLibrary) : Prop where
  nfc_nfc : ∀ s, lib.nfc (lib.nfc s) = lib.nfc s
  nfc_ascii : ∀ text : Text, (∀ c ∈ text, c.toNat < 128) →
    lib.nfc (PyStr.ofText text) = PyStr.ofText text
  representable : ∀ s utc, lib.fromisoformat s = .aware (some utc) → utc.representable = true
  reads : ∀ utc : DateTime, utc.representable = true →
    lib.fromisoformat (utcOffset (.ofString utc.rfc3339)) = .aware (some utc)

/-! ## Values -/

mutual

/-- How often `_value` is called on a value. -/
def nodes : PyJson → ℕ
  | .arr items => 1 + nodesItems items
  | .obj fields => 1 + nodesFields fields
  | _ => 1

def nodesItems : List PyJson → ℕ
  | [] => 0
  | x :: rest => nodes x + nodesItems rest

def nodesFields : Fields → ℕ
  | [] => 0
  | (_, x) :: rest => nodes x + nodesFields rest

end

section Values

variable (lib)

mutual

/-- The value with its strings in NFC. -/
def normal : PyJson → PyJson
  | .str s => .str (lib.nfc s)
  | .arr items => .arr (normalItems items)
  | .obj fields => .obj (normalFields fields)
  | value => value

def normalItems : List PyJson → List PyJson
  | [] => []
  | x :: rest => normal x :: normalItems rest

def normalFields : Fields → Fields
  | [] => []
  | (key, x) :: rest => (key, normal x) :: normalFields rest

end

mutual

/-- `_value` accepts the value at a depth, as far as its budget allows. -/
def Admits : PyJson → ℕ → Prop
  | .arr items, depth => depth ≤ 8 ∧ items.length ≤ 100 ∧ AdmitsItems items (depth + 1)
  | .obj fields, depth => depth ≤ 8 ∧ fields.length ≤ 32 ∧ AdmitsFields fields [] (depth + 1)
  | value, depth => depth ≤ 8 ∧ (scalar lib value).isOk = true

def AdmitsItems : List PyJson → ℕ → Prop
  | [], _ => True
  | x :: rest, depth => Admits x depth ∧ AdmitsItems rest depth

def AdmitsFields : Fields → List PyStr → ℕ → Prop
  | [], _, _ => True
  | (key, x) :: rest, seen, depth =>
    nestedKey lib seen key = .ok () ∧ Admits x depth ∧ AdmitsFields rest (seen ++ [key]) depth

end

end Values

/-- A call of `_value` counts itself, down to depth eight and up to a thousand calls. -/
@[simp] theorem spend_eq_ok {depth used used' : ℕ} :
    spend depth used = .ok used' ↔ depth ≤ 8 ∧ used + 1 ≤ 1000 ∧ used' = used + 1 := by
  unfold spend
  split
  · rename_i h
    rw [Except.ok.injEq, eq_comm]
    exact ⟨fun heq => ⟨h.1, h.2, heq⟩, fun heq => heq.2.2⟩
  · rename_i h
    constructor
    · intro heq
      cases heq
    · intro heq
      exact absurd ⟨heq.1, heq.2.1⟩ h

/-- The length in bytes is that of the encoded text. -/
@[simp] theorem encodedLength_eq_ok {s : PyStr} {n : ℕ} :
    encodedLength s = .ok n ↔ ∃ text, s.encode? = some text ∧ n = utf8Length text := by
  unfold encodedLength
  split
  · rename_i text htext
    rw [Except.ok.injEq, htext]
    simp [eq_comm]
  · rename_i htext
    rw [htext]
    simp

/-- An accepted string is returned as it is. -/
theorem valueText_eq_ok {s : PyStr} {out : PyJson} (h : valueText s = .ok out) : out = .str s := by
  unfold valueText at h
  obtain ⟨-, -, h⟩ := bind_eq_ok.mp h
  obtain ⟨n, -, h⟩ := bind_eq_ok.mp h
  obtain ⟨-, -, h⟩ := bind_eq_ok.mp h
  exact (Except.ok.inj h).symm

/-- What is neither an array nor an object keeps its value but for the form of a string. -/
theorem scalar_eq_ok {value out : PyJson} (h : scalar lib value = .ok out) :
    out = normal lib value ∧ isContainer value = false := by
  cases value with
  | null | bool b => exact ⟨(Except.ok.inj h).symm, rfl⟩
  | int n =>
    simp only [scalar] at h
    split at h
    · exact ⟨(Except.ok.inj h).symm, rfl⟩
    · cases h
  | float x =>
    cases x with
    | finite q =>
      simp only [scalar] at h
      split at h
      · exact ⟨(Except.ok.inj h).symm, rfl⟩
      · cases h
    | _ => cases h
  | str s => exact ⟨valueText_eq_ok h, rfl⟩
  | arr items => cases h
  | obj fields => cases h

/-- An accepted scalar is returned in normal form. -/
theorem scalar_isOk {value : PyJson} :
    (scalar lib value).isOk = true ↔ scalar lib value = .ok (normal lib value) := by
  constructor
  · intro h
    obtain ⟨out, hout⟩ := Transaction.exists_eq_ok_of_isOk h
    rw [hout, (scalar_eq_ok hout).1]
  · intro h
    rw [h]
    rfl

/-- `_value` of a scalar. -/
theorem nested_scalar {value : PyJson} (hscalar : isContainer value = false) {depth used : ℕ}
    {out : PyJson} {used' : ℕ} :
    nested lib value depth used = .ok (out, used') ↔
      (depth ≤ 8 ∧ (scalar lib value).isOk = true) ∧ used + 1 ≤ 1000
        ∧ out = normal lib value ∧ used' = used + 1 := by
  have hbody : nested lib value depth used = do
      let used ← spend depth used
      return (← scalar lib value, used) := by
    cases value with
    | arr items => cases hscalar
    | obj fields => cases hscalar
    | _ => rfl
  rw [hbody, scalar_isOk]
  simp only [bind_eq_ok, spend_eq_ok, pure, Except.pure, Except.ok.injEq, Prod.mk.injEq]
  constructor
  · rintro ⟨spent, ⟨hdepth, hused, rfl⟩, out', hout, rfl, rfl⟩
    have hnormal := (scalar_eq_ok hout).1
    rw [hnormal] at hout
    exact ⟨⟨hdepth, hout⟩, hused, hnormal, rfl⟩
  · rintro ⟨⟨hdepth, hout⟩, hused, rfl, rfl⟩
    exact ⟨_, ⟨hdepth, hused, rfl⟩, _, hout, rfl, rfl⟩

mutual

/-- `_value` accepts what `Admits` allows and its budget has room for, and returns the value in
normal form. -/
theorem nested_eq_ok : ∀ (value : PyJson) {depth used used' : ℕ} {out : PyJson},
    nested lib value depth used = .ok (out, used') ↔
      Admits lib value depth ∧ used + nodes value ≤ 1000 ∧ out = normal lib value
        ∧ used' = used + nodes value
  | .null, _, _, _, _ | .bool _, _, _, _, _ | .int _, _, _, _, _ | .float _, _, _, _, _
  | .str _, _, _, _, _ => nested_scalar rfl
  | .arr items, depth, used, used', out => by
    rw [nested, Admits, nodes, normal]
    simp only [bind_eq_ok, spend_eq_ok, require_eq_ok, decide_eq_true_eq, pure, Except.pure,
      Except.ok.injEq, Prod.mk.injEq, Prod.exists]
    constructor
    · rintro ⟨spent, ⟨hdepth, hused, rfl⟩, -, hlength, rest, used'', hrest, rfl, rfl⟩
      obtain ⟨hitems, hbudget, rfl, rfl⟩ := (nestedItems_eq_ok items hused).mp hrest
      exact ⟨⟨hdepth, hlength, hitems⟩, by omega, rfl, by omega⟩
    · rintro ⟨⟨hdepth, hlength, hitems⟩, hbudget, rfl, rfl⟩
      have hused : used + 1 ≤ 1000 := by omega
      have hrest : nestedItems lib items (depth + 1) (used + 1)
          = .ok (normalItems lib items, used + 1 + nodesItems items) :=
        (nestedItems_eq_ok items hused).mpr ⟨hitems, by omega, rfl, rfl⟩
      exact ⟨used + 1, ⟨hdepth, hused, rfl⟩, (), hlength, _, _, hrest, rfl, by omega⟩
  | .obj fields, depth, used, used', out => by
    rw [nested, Admits, nodes, normal]
    simp only [bind_eq_ok, spend_eq_ok, require_eq_ok, decide_eq_true_eq, pure, Except.pure,
      Except.ok.injEq, Prod.mk.injEq, Prod.exists]
    constructor
    · rintro ⟨spent, ⟨hdepth, hused, rfl⟩, -, hlength, rest, used'', hrest, rfl, rfl⟩
      obtain ⟨hfields, hbudget, rfl, rfl⟩ := (nestedFields_eq_ok fields hused).mp hrest
      exact ⟨⟨hdepth, hlength, hfields⟩, by omega, rfl, by omega⟩
    · rintro ⟨⟨hdepth, hlength, hfields⟩, hbudget, rfl, rfl⟩
      have hused : used + 1 ≤ 1000 := by omega
      have hrest : nestedFields lib fields [] (depth + 1) (used + 1)
          = .ok (normalFields lib fields, used + 1 + nodesFields fields) :=
        (nestedFields_eq_ok fields hused).mpr ⟨hfields, by omega, rfl, rfl⟩
      exact ⟨used + 1, ⟨hdepth, hused, rfl⟩, (), hlength, _, _, hrest, rfl, by omega⟩

/-- The items of a list are accepted in order, and their calls add up. -/
theorem nestedItems_eq_ok : ∀ (items : List PyJson) {depth used used' : ℕ} {out : List PyJson},
    used ≤ 1000 → (nestedItems lib items depth used = .ok (out, used') ↔
      AdmitsItems lib items depth ∧ used + nodesItems items ≤ 1000
        ∧ out = normalItems lib items ∧ used' = used + nodesItems items)
  | [], depth, used, used', out, hused => by
    rw [nestedItems, AdmitsItems, nodesItems, normalItems, Except.ok.injEq, Prod.mk.injEq]
    constructor
    · rintro ⟨rfl, rfl⟩
      exact ⟨trivial, hused, rfl, rfl⟩
    · rintro ⟨-, -, rfl, rfl⟩
      exact ⟨rfl, rfl⟩
  | x :: rest, depth, used, used', out, _ => by
    rw [nestedItems, AdmitsItems, nodesItems, normalItems]
    simp only [bind_eq_ok, pure, Except.pure, Except.ok.injEq, Prod.mk.injEq, Prod.exists,
      nested_eq_ok x]
    constructor
    · rintro ⟨x', used₁, ⟨hx, hbudget, rfl, rfl⟩, rest', used₂, hrest, rfl, rfl⟩
      obtain ⟨hitems, hleft, rfl, rfl⟩ := (nestedItems_eq_ok rest hbudget).mp hrest
      exact ⟨⟨hx, hitems⟩, by omega, rfl, by omega⟩
    · rintro ⟨⟨hx, hitems⟩, hbudget, rfl, rfl⟩
      have hused : used + nodes x ≤ 1000 := by omega
      have hrest : nestedItems lib rest depth (used + nodes x)
          = .ok (normalItems lib rest, used + nodes x + nodesItems rest) :=
        (nestedItems_eq_ok rest hused).mpr ⟨hitems, by omega, rfl, rfl⟩
      exact ⟨_, _, ⟨hx, hused, rfl, rfl⟩, _, _, hrest, rfl, by omega⟩

/-- The fields of an object are accepted in order, each under a key not seen before. -/
theorem nestedFields_eq_ok : ∀ (fields : Fields) {seen : List PyStr} {depth used used' : ℕ}
    {out : Fields}, used ≤ 1000 → (nestedFields lib fields seen depth used = .ok (out, used') ↔
      AdmitsFields lib fields seen depth ∧ used + nodesFields fields ≤ 1000
        ∧ out = normalFields lib fields ∧ used' = used + nodesFields fields)
  | [], seen, depth, used, used', out, hused => by
    rw [nestedFields, AdmitsFields, nodesFields, normalFields, Except.ok.injEq, Prod.mk.injEq]
    constructor
    · rintro ⟨rfl, rfl⟩
      exact ⟨trivial, hused, rfl, rfl⟩
    · rintro ⟨-, -, rfl, rfl⟩
      exact ⟨rfl, rfl⟩
  | (key, x) :: rest, seen, depth, used, used', out, _ => by
    rw [nestedFields, AdmitsFields, nodesFields, normalFields]
    simp only [bind_eq_ok, pure, Except.pure, Except.ok.injEq, Prod.mk.injEq, Prod.exists,
      nested_eq_ok x]
    constructor
    · rintro ⟨u, hkey, x', used₁, ⟨hx, hbudget, rfl, rfl⟩, rest', used₂, hrest, rfl, rfl⟩
      obtain ⟨hfields, hleft, rfl, rfl⟩ := (nestedFields_eq_ok rest hbudget).mp hrest
      exact ⟨⟨hkey, hx, hfields⟩, by omega, rfl, by omega⟩
    · rintro ⟨⟨hkey, hx, hfields⟩, hbudget, rfl, rfl⟩
      have hused : used + nodes x ≤ 1000 := by omega
      have hrest : nestedFields lib rest (seen ++ [key]) depth (used + nodes x)
          = .ok (normalFields lib rest, used + nodes x + nodesFields rest) :=
        (nestedFields_eq_ok rest hused).mpr ⟨hfields, by omega, rfl, rfl⟩
      exact ⟨(), hkey, _, _, ⟨hx, hused, rfl, rfl⟩, _, _, hrest, rfl, by omega⟩

end

/-- A whole value is accepted from depth zero with the full budget. -/
theorem value_eq_ok {raw out : PyJson} :
    value lib raw = .ok out ↔ Admits lib raw 0 ∧ nodes raw ≤ 1000 ∧ out = normal lib raw := by
  simp only [value, bind_eq_ok, pure, Except.pure, Except.ok.injEq, Prod.exists, nested_eq_ok raw]
  constructor
  · rintro ⟨out', used, ⟨hadmits, hbudget, rfl, -⟩, rfl⟩
    exact ⟨hadmits, by omega, rfl⟩
  · rintro ⟨hadmits, hbudget, rfl⟩
    exact ⟨_, _, ⟨hadmits, by omega, rfl, rfl⟩, rfl⟩

/-! ## The normal form of a value -/

/-- The normal form has as many items. -/
theorem length_normalItems (items : List PyJson) :
    (normalItems lib items).length = items.length := by
  induction items with
  | nil => rfl
  | cons x rest ih => rw [normalItems, List.length_cons, List.length_cons, ih]

/-- The normal form changes values, not keys. -/
theorem normalFields_eq_map (fields : Fields) :
    normalFields lib fields = fields.map fun f => (f.1, normal lib f.2) := by
  induction fields with
  | nil => rfl
  | cons f rest ih => rw [normalFields, ih, List.map_cons]

mutual

/-- The normal form takes as many calls. -/
theorem nodes_normal : ∀ value : PyJson, nodes (normal lib value) = nodes value
  | .null | .bool _ | .int _ | .float _ | .str _ => rfl
  | .arr items => by rw [normal, nodes, nodes, nodesItems_normal items]
  | .obj fields => by rw [normal, nodes, nodes, nodesFields_normal fields]

/-- The items in normal form take as many calls. -/
theorem nodesItems_normal : ∀ items : List PyJson,
    nodesItems (normalItems lib items) = nodesItems items
  | [] => rfl
  | x :: rest => by
    rw [normalItems, nodesItems, nodesItems, nodes_normal x, nodesItems_normal rest]

/-- The fields in normal form take as many calls. -/
theorem nodesFields_normal : ∀ fields : Fields,
    nodesFields (normalFields lib fields) = nodesFields fields
  | [] => rfl
  | (key, x) :: rest => by
    rw [normalFields, nodesFields, nodesFields, nodes_normal x, nodesFields_normal rest]

end

mutual

/-- The normal form is its own, since NFC is idempotent. -/
theorem normal_normal (htexts : LawfulTexts lib) : ∀ value : PyJson,
    normal lib (normal lib value) = normal lib value
  | .null | .bool _ | .int _ | .float _ => rfl
  | .str s => by rw [normal, normal, htexts.nfc_nfc]
  | .arr items => by rw [normal, normal, normalItems_normal htexts items]
  | .obj fields => by rw [normal, normal, normalFields_normal htexts fields]

/-- Items in normal form are their own normal form. -/
theorem normalItems_normal (htexts : LawfulTexts lib) : ∀ items : List PyJson,
    normalItems lib (normalItems lib items) = normalItems lib items
  | [] => rfl
  | x :: rest => by
    rw [normalItems, normalItems, normal_normal htexts x, normalItems_normal htexts rest]

/-- Fields in normal form are their own normal form. -/
theorem normalFields_normal (htexts : LawfulTexts lib) : ∀ fields : Fields,
    normalFields lib (normalFields lib fields) = normalFields lib fields
  | [] => rfl
  | (key, x) :: rest => by
    rw [normalFields, normalFields, normal_normal htexts x, normalFields_normal htexts rest]

end

mutual

/-- The value in normal form is accepted where the value is. -/
theorem admits_normal (htexts : LawfulTexts lib) : ∀ (value : PyJson) {depth : ℕ},
    Admits lib value depth → Admits lib (normal lib value) depth
  | .null, _, h | .bool _, _, h | .int _, _, h | .float _, _, h => h
  | .str s, depth, h => by
    obtain ⟨hdepth, hscalar⟩ := h
    refine ⟨hdepth, ?_⟩
    show (valueText (lib.nfc (lib.nfc s))).isOk = true
    rw [htexts.nfc_nfc]
    exact hscalar
  | .arr items, depth, h => by
    obtain ⟨hdepth, hlength, hitems⟩ := h
    refine ⟨hdepth, ?_, admitsItems_normal htexts items hitems⟩
    rw [length_normalItems]
    exact hlength
  | .obj fields, depth, h => by
    obtain ⟨hdepth, hlength, hfields⟩ := h
    refine ⟨hdepth, ?_, admitsFields_normal htexts fields hfields⟩
    rw [normalFields_eq_map, List.length_map]
    exact hlength

/-- Items are accepted in normal form where they were accepted. -/
theorem admitsItems_normal (htexts : LawfulTexts lib) : ∀ (items : List PyJson) {depth : ℕ},
    AdmitsItems lib items depth → AdmitsItems lib (normalItems lib items) depth
  | [], _, _ => trivial
  | x :: rest, _, h => ⟨admits_normal htexts x h.1, admitsItems_normal htexts rest h.2⟩

/-- Fields are accepted in normal form where they were accepted. -/
theorem admitsFields_normal (htexts : LawfulTexts lib) : ∀ (fields : Fields) {seen : List PyStr}
    {depth : ℕ}, AdmitsFields lib fields seen depth →
      AdmitsFields lib (normalFields lib fields) seen depth
  | [], _, _, _ => trivial
  | (_, x) :: rest, _, _, h =>
    ⟨h.1, admits_normal htexts x h.2.1, admitsFields_normal htexts rest h.2.2⟩

end

/-- `_value` leaves what it returned as it is. -/
theorem value_stable (htexts : LawfulTexts lib) {raw out : PyJson} (h : value lib raw = .ok out) :
    value lib out = .ok out := by
  obtain ⟨hadmits, hbudget, rfl⟩ := value_eq_ok.mp h
  refine value_eq_ok.mpr ⟨admits_normal htexts raw hadmits, ?_, (normal_normal htexts raw).symm⟩
  rw [nodes_normal]
  exact hbudget

/-! ## The keys of a value -/

/-- A key `_value` accepts. -/
def LegalKey (lib : TextLibrary) (key : PyStr) : Prop :=
  key ≠ [] ∧ key.isStripped = true
    ∧ (∃ text, key.encode? = some text ∧ utf8Length text ≤ 140)
    ∧ secret lib key = false ∧ lib.nfc key = key

/-- A key is accepted when it is legal and new. -/
theorem nestedKey_eq_ok {seen : List PyStr} {key : PyStr} {u : Unit} :
    nestedKey lib seen key = .ok u ↔ LegalKey lib key ∧ key ∉ seen := by
  unfold LegalKey
  simp only [nestedKey, bind_eq_ok, requireWith_eq_ok, require_eq_ok, encodedLength_eq_ok,
    exists_const, Bool.and_eq_true, Bool.not_eq_true', decide_eq_true_eq, beq_iff_eq,
    List.isEmpty_eq_false_iff, List.contains_eq_mem, decide_eq_false_iff_not]
  constructor
  · rintro ⟨⟨hne, hstripped⟩, n, ⟨text, htext, rfl⟩, ⟨hlength, hsecret⟩, hnfc, hseen⟩
    exact ⟨⟨hne, hstripped, ⟨text, htext, hlength⟩, hsecret, hnfc⟩, hseen⟩
  · rintro ⟨⟨hne, hstripped, ⟨text, htext, hlength⟩, hsecret, hnfc⟩, hseen⟩
    exact ⟨⟨hne, hstripped⟩, _, ⟨text, htext, rfl⟩, ⟨hlength, hsecret⟩, hnfc, hseen⟩

/-- The order of the fields does not matter. -/
theorem admitsFields_iff {fields : Fields} {seen : List PyStr} {depth : ℕ} :
    AdmitsFields lib fields seen depth ↔
      (∀ f ∈ fields, f.1 ∉ seen ∧ LegalKey lib f.1 ∧ Admits lib f.2 depth)
        ∧ (fields.map Prod.fst).Nodup := by
  induction fields generalizing seen with
  | nil => simp [AdmitsFields]
  | cons f rest ih =>
    obtain ⟨key, x⟩ := f
    rw [AdmitsFields, ih, nestedKey_eq_ok, List.forall_mem_cons, List.map_cons, List.nodup_cons]
    simp only [List.mem_append, List.mem_singleton, not_or]
    constructor
    · rintro ⟨⟨hkey, hseen⟩, hx, hrest, hnodup⟩
      refine ⟨⟨⟨hseen, hkey, hx⟩, fun f hf => ⟨(hrest f hf).1.1, (hrest f hf).2⟩⟩, ?_, hnodup⟩
      intro hmem
      obtain ⟨f, hf, hsame⟩ := List.mem_map.mp hmem
      exact (hrest f hf).1.2 hsame
    · rintro ⟨⟨⟨hseen, hkey, hx⟩, hrest⟩, hfresh, hnodup⟩
      refine ⟨⟨hkey, hseen⟩, hx, fun f hf => ⟨⟨(hrest f hf).1, ?_⟩, (hrest f hf).2⟩, hnodup⟩
      intro hsame
      exact hfresh (List.mem_map.mpr ⟨f, hf, hsame⟩)

/-! ## Values as documents -/

mutual

/-- A value in normal form can be encoded. -/
theorem exists_json : ∀ (value : PyJson) {depth : ℕ}, Admits lib value depth →
    ∃ j, ofJson j = normal lib value
  | .null, _, _ => ⟨.null, rfl⟩
  | .bool b, _, _ => ⟨.bool b, rfl⟩
  | .int n, _, _ => ⟨.int n, rfl⟩
  | .float x, _, _ => ⟨.float x, rfl⟩
  | .str s, depth, h => by
    have hscalar : (valueText (lib.nfc s)).isOk = true := h.2
    obtain ⟨out, hout⟩ := Transaction.exists_eq_ok_of_isOk hscalar
    simp only [valueText, bind_eq_ok, encodedLength_eq_ok] at hout
    obtain ⟨-, -, n, ⟨text, htext, -⟩, -⟩ := hout
    refine ⟨.str (String.ofList text), ?_⟩
    show PyJson.str (PyStr.ofString (String.ofList text)) = .str (lib.nfc s)
    rw [ofString_of_encode? htext]
  | .arr items, depth, h => by
    obtain ⟨js, hjs⟩ := exists_items items h.2.2
    exact ⟨.arr js, by rw [ofJson, hjs, normal]⟩
  | .obj fields, depth, h => by
    obtain ⟨js, hjs⟩ := exists_fields fields h.2.2
    exact ⟨.obj js, by rw [ofJson, hjs, normal]⟩

/-- Items in normal form can be encoded. -/
theorem exists_items : ∀ (items : List PyJson) {depth : ℕ}, AdmitsItems lib items depth →
    ∃ js, ofItems js = normalItems lib items
  | [], _, _ => ⟨[], rfl⟩
  | x :: rest, _, h => by
    obtain ⟨j, hj⟩ := exists_json x h.1
    obtain ⟨js, hjs⟩ := exists_items rest h.2
    exact ⟨j :: js, by rw [ofItems, hj, hjs, normalItems]⟩

/-- Fields in normal form can be encoded. -/
theorem exists_fields : ∀ (fields : Fields) {seen : List PyStr} {depth : ℕ},
    AdmitsFields lib fields seen depth → ∃ js, ofFields js = normalFields lib fields
  | [], _, _, _ => ⟨[], rfl⟩
  | (key, x) :: rest, _, _, h => by
    obtain ⟨⟨-, -, ⟨text, htext, -⟩, -⟩, -⟩ := nestedKey_eq_ok.mp h.1
    obtain ⟨j, hj⟩ := exists_json x h.2.1
    obtain ⟨js, hjs⟩ := exists_fields rest h.2.2
    refine ⟨(String.ofList text, j) :: js, ?_⟩
    rw [ofFields, hj, hjs, ofString_of_encode? htext, normalFields]

end

/-- The calls of the fields add up, in any order. -/
theorem nodesFields_eq_sum (fields : Fields) :
    nodesFields fields = (fields.map fun f => nodes f.2).sum := by
  induction fields with
  | nil => rfl
  | cons f rest ih => rw [nodesFields, ih, List.map_cons, List.sum_cons]

mutual

/-- The order of the keys does not matter to the budget. -/
theorem nodes_sorted : ∀ value : Json, nodes (ofJson value.sorted) = nodes (ofJson value)
  | .null | .bool _ | .int _ | .float _ | .str _ => rfl
  | .arr items => by
    rw [Json.sorted, ofJson, ofJson, nodes, nodes, nodesItems_sorted items]
  | .obj fields => by
    rw [Json.sorted, ofJson, ofJson, nodes, nodes, nodesFields_sorted fields]

/-- Sorting the keys inside items takes no more calls. -/
theorem nodesItems_sorted : ∀ items : List Json,
    nodesItems (ofItems (Json.sortedItems items)) = nodesItems (ofItems items)
  | [] => rfl
  | x :: rest => by
    rw [Json.sortedItems, ofItems, ofItems, nodesItems, nodesItems, nodes_sorted x,
      nodesItems_sorted rest]

/-- Sorting the fields takes no more calls. -/
theorem nodesFields_sorted (fields : List (String × Json)) :
    nodesFields (ofFields (sortByKey (Json.sortedFields fields)))
      = nodesFields (ofFields fields) := by
  have hperm := ((perm_sortByKey (Json.sortedFields fields)).map
    fun f => (PyStr.ofString f.1, ofJson f.2)).map fun f => nodes f.2
  rw [ofFields_eq_map, nodesFields_eq_sum, hperm.sum_nat, ← nodesFields_eq_sum, ← ofFields_eq_map]
  exact nodesFields_sortedValues fields

/-- Sorting the keys inside fields takes no more calls. -/
theorem nodesFields_sortedValues : ∀ fields : List (String × Json),
    nodesFields (ofFields (Json.sortedFields fields)) = nodesFields (ofFields fields)
  | [] => rfl
  | (key, x) :: rest => by
    rw [Json.sortedFields, ofFields, ofFields, nodesFields, nodesFields, nodes_sorted x,
      nodesFields_sortedValues rest]

end

/-- What holds of the fields, whatever their order. -/
theorem forall_sortedFields {p : PyStr × PyJson → Prop} {fields : List (String × Json)} :
    (∀ f ∈ ofFields (sortByKey (Json.sortedFields fields)), p f) ↔
      ∀ f ∈ fields, p (.ofString f.1, ofJson f.2.sorted) := by
  rw [ofFields_eq_map, Json.sortedFields_eq_map]
  simp only [List.mem_map, mem_sortByKey, forall_exists_index, and_imp,
    forall_apply_eq_imp_iff₂]

/-- The sorted fields have the same keys. -/
theorem keys_sortedFields (fields : List (String × Json)) :
    ((ofFields (sortByKey (Json.sortedFields fields))).map Prod.fst).Perm
      ((ofFields fields).map Prod.fst) := by
  rw [keys_ofFields, keys_ofFields]
  have hsorted : (Json.keys (sortByKey (Json.sortedFields fields))).Perm (Json.keys fields) := by
    have hperm := (perm_sortByKey (Json.sortedFields fields)).map Prod.fst
    rw [Json.keys_sortedFields] at hperm
    exact hperm
  exact hsorted.map _

/-- The sorted fields are as many. -/
theorem length_sortedFields (fields : List (String × Json)) :
    (ofFields (sortByKey (Json.sortedFields fields))).length = (ofFields fields).length := by
  have hperm := keys_sortedFields fields
  have hlength := hperm.length_eq
  rw [List.length_map, List.length_map] at hlength
  exact hlength

mutual

/-- The order of the keys does not matter to `_value`. -/
theorem admits_sorted : ∀ (value : Json) {depth : ℕ}, Admits lib (ofJson value) depth →
    Admits lib (ofJson value.sorted) depth
  | .null, _, h | .bool _, _, h | .int _, _, h | .float _, _, h | .str _, _, h => h
  | .arr items, depth, h => by
    obtain ⟨hdepth, hlength, hitems⟩ := h
    refine ⟨hdepth, ?_, admits_sortedItems items hitems⟩
    rw [ofItems_eq_map, List.length_map] at hlength ⊢
    rw [Json.sortedItems_eq_map, List.length_map]
    exact hlength
  | .obj fields, depth, h => by
    obtain ⟨hdepth, hlength, hfields⟩ := h
    obtain ⟨hall, hnodup⟩ := admitsFields_iff.mp hfields
    refine ⟨hdepth, ?_, admitsFields_iff.mpr ⟨?_, ?_⟩⟩
    · rw [length_sortedFields]
      exact hlength
    · rw [forall_sortedFields]
      exact admits_sortedFields fields hall
    · rw [(keys_sortedFields fields).nodup_iff]
      exact hnodup

/-- Items are accepted with their keys sorted. -/
theorem admits_sortedItems : ∀ (items : List Json) {depth : ℕ},
    AdmitsItems lib (ofItems items) depth →
      AdmitsItems lib (ofItems (Json.sortedItems items)) depth
  | [], _, _ => trivial
  | x :: rest, _, h => ⟨admits_sorted x h.1, admits_sortedItems rest h.2⟩

/-- Fields are accepted with their keys sorted. -/
theorem admits_sortedFields : ∀ (fields : List (String × Json)) {depth : ℕ},
    (∀ f ∈ ofFields fields, f.1 ∉ ([] : List PyStr) ∧ LegalKey lib f.1 ∧ Admits lib f.2 depth) →
      ∀ f ∈ fields, PyStr.ofString f.1 ∉ ([] : List PyStr) ∧ LegalKey lib (.ofString f.1)
        ∧ Admits lib (ofJson f.2.sorted) depth
  | [], _, _ => nofun
  | (key, x) :: rest, depth, h => by
    rw [ofFields, List.forall_mem_cons] at h
    rw [List.forall_mem_cons]
    exact ⟨⟨h.1.1, h.1.2.1, admits_sorted x h.1.2.2⟩, admits_sortedFields rest h.2⟩

end

mutual

/-- A document in normal form stays in it. -/
theorem normal_sorted : ∀ value : Json, normal lib (ofJson value) = ofJson value →
    normal lib (ofJson value.sorted) = ofJson value.sorted
  | .null, h | .bool _, h | .int _, h | .float _, h | .str _, h => h
  | .arr items, h => by
    have hitems : normalItems lib (ofItems items) = ofItems items := PyJson.arr.inj h
    rw [Json.sorted, ofJson, normal, normal_sortedItems items hitems]
  | .obj fields, h => by
    have hfields : normalFields lib (ofFields fields) = ofFields fields := PyJson.obj.inj h
    have hsorted : ∀ f ∈ ofFields (sortByKey (Json.sortedFields fields)), normal lib f.2 = f.2 := by
      rw [forall_sortedFields]
      exact normal_sortedFields fields hfields
    have hmap : ∀ f ∈ ofFields (sortByKey (Json.sortedFields fields)),
        (fun f : PyStr × PyJson => (f.1, normal lib f.2)) f = id f := by
      intro f hf
      show (f.1, normal lib f.2) = f
      rw [hsorted f hf]
    rw [Json.sorted, ofJson, normal, normalFields_eq_map, List.map_congr_left hmap, List.map_id]

/-- Items in normal form stay in it with their keys sorted. -/
theorem normal_sortedItems : ∀ items : List Json, normalItems lib (ofItems items) = ofItems items →
    normalItems lib (ofItems (Json.sortedItems items)) = ofItems (Json.sortedItems items)
  | [], _ => rfl
  | x :: rest, h => by
    rw [ofItems, normalItems, List.cons.injEq] at h
    rw [Json.sortedItems, ofItems, normalItems, normal_sorted x h.1, normal_sortedItems rest h.2]

/-- Fields in normal form stay in it with their keys sorted. -/
theorem normal_sortedFields : ∀ fields : List (String × Json),
    normalFields lib (ofFields fields) = ofFields fields →
      ∀ f ∈ fields, normal lib (ofJson f.2.sorted) = ofJson f.2.sorted
  | [], _ => nofun
  | (key, x) :: rest, h => by
    rw [ofFields, normalFields, List.cons.injEq, Prod.mk.injEq] at h
    rw [List.forall_mem_cons]
    exact ⟨normal_sorted x h.1.2, normal_sortedFields rest h.2⟩

end

/-- `_value` leaves a document it returned as it is, its keys in order. -/
theorem value_sorted {document : Json} (h : value lib (ofJson document) = .ok (ofJson document)) :
    value lib (ofJson document.sorted) = .ok (ofJson document.sorted) := by
  obtain ⟨hadmits, hbudget, hnormal⟩ := value_eq_ok.mp h
  refine value_eq_ok.mpr ⟨admits_sorted document hadmits, ?_, ?_⟩
  · rw [nodes_sorted]
    exact hbudget
  · exact (normal_sorted document hnormal.symm).symm

/-! ## Reading a value back -/

section Readable

variable (R L)

mutual

/-- The floats of a value are read back as they are written. -/
def ReadsFloats : PyJson → Prop
  | .float (.finite q) => Reader.ReadsFloat R L q
  | .arr items => ReadsFloatItems items
  | .obj fields => ReadsFloatFields fields
  | _ => True

def ReadsFloatItems : List PyJson → Prop
  | [] => True
  | x :: rest => ReadsFloats x ∧ ReadsFloatItems rest

def ReadsFloatFields : Fields → Prop
  | [] => True
  | (_, x) :: rest => ReadsFloats x ∧ ReadsFloatFields rest

end

end Readable

/-- The floats of items are those of each item. -/
theorem readsFloatItems_iff {items : List PyJson} :
    ReadsFloatItems R L items ↔ ∀ x ∈ items, ReadsFloats R L x := by
  induction items with
  | nil => simp [ReadsFloatItems]
  | cons x rest ih => simp [ReadsFloatItems, ih]

/-- The floats of fields are those of each value. -/
theorem readsFloatFields_iff {fields : Fields} :
    ReadsFloatFields R L fields ↔ ∀ f ∈ fields, ReadsFloats R L f.2 := by
  induction fields with
  | nil => simp [ReadsFloatFields]
  | cons f rest ih => simp [ReadsFloatFields, ih]

mutual

/-- The normal form has the same floats. -/
theorem readsFloats_normal : ∀ value : PyJson,
    ReadsFloats R L value → ReadsFloats R L (normal lib value)
  | .null, h | .bool _, h | .int _, h | .float _, h => h
  | .str _, _ => trivial
  | .arr items, h => readsFloatItems_normal items h
  | .obj fields, h => readsFloatFields_normal fields h

/-- The items in normal form have the same floats. -/
theorem readsFloatItems_normal : ∀ items : List PyJson,
    ReadsFloatItems R L items → ReadsFloatItems R L (normalItems lib items)
  | [], _ => trivial
  | x :: rest, h => ⟨readsFloats_normal x h.1, readsFloatItems_normal rest h.2⟩

/-- The fields in normal form have the same floats. -/
theorem readsFloatFields_normal : ∀ fields : Fields,
    ReadsFloatFields R L fields → ReadsFloatFields R L (normalFields lib fields)
  | [], _ => trivial
  | (_, x) :: rest, h => ⟨readsFloats_normal x h.1, readsFloatFields_normal rest h.2⟩

end

/-- An integer of 38 digits. -/
theorem intDigitCount_le {n : ℤ} (h : n.natAbs ≤ 10 ^ 38 - 1) : Reader.intDigitCount n ≤ 38 := by
  apply (Nat.length_toDigits_le_iff (by omega) (by omega)).mpr
  omega

mutual

/-- What `_value` accepts is read back. -/
theorem readable_of_admits (hdigits : 38 ≤ L.intDigits) : ∀ (value : Json) {depth left : ℕ},
    Admits lib (ofJson value) depth → ReadsFloats R L (ofJson value) → 9 ≤ depth + left →
      Reader.Readable R L value left
  | .null, _, _, _, _, _ | .bool _, _, _, _, _, _ | .str _, _, _, _, _, _ => trivial
  | .int n, depth, left, h, _, _ => by
    have hscalar := scalar_isOk.mp h.2
    rw [ofJson, scalar] at hscalar
    split at hscalar
    · rename_i hbound
      exact (intDigitCount_le hbound).trans hdigits
    · cases hscalar
  | .float (.finite q), _, _, _, h, _ => h
  | .float .infinity, _, _, _, _, _ | .float .negInfinity, _, _, _, _, _
  | .float .nan, _, _, _, _, _ => trivial
  | .arr items, depth, left, h, hfloats, hleft => by
    obtain ⟨hdepth, -, hitems⟩ := h
    refine ⟨by omega, ?_⟩
    exact readableItems_of_admits hdigits items hitems hfloats (by omega)
  | .obj fields, depth, left, h, hfloats, hleft => by
    obtain ⟨hdepth, -, hfields⟩ := h
    have hnodup := (admitsFields_iff.mp hfields).2
    rw [keys_ofFields] at hnodup
    refine ⟨by omega, hnodup.of_map _, ?_⟩
    exact readableFields_of_admits hdigits fields hfields hfloats (by omega)

/-- Accepted items are read back, one level down. -/
theorem readableItems_of_admits (hdigits : 38 ≤ L.intDigits) : ∀ (items : List Json)
    {depth left : ℕ}, AdmitsItems lib (ofItems items) depth → ReadsFloatItems R L (ofItems items) →
      9 ≤ depth + left → Reader.ReadableItems R L items left
  | [], _, _, _, _, _ => trivial
  | x :: rest, _, _, h, hfloats, hleft =>
    ⟨readable_of_admits hdigits x h.1 hfloats.1 hleft,
      readableItems_of_admits hdigits rest h.2 hfloats.2 hleft⟩

/-- Accepted fields are read back, one level down. -/
theorem readableFields_of_admits (hdigits : 38 ≤ L.intDigits) : ∀ (fields : List (String × Json))
    {seen : List PyStr} {depth left : ℕ}, AdmitsFields lib (ofFields fields) seen depth →
      ReadsFloatFields R L (ofFields fields) → 9 ≤ depth + left →
      Reader.ReadableFields R L fields left
  | [], _, _, _, _, _, _ => trivial
  | (_, x) :: rest, _, _, _, h, hfloats, hleft =>
    ⟨readable_of_admits hdigits x h.2.1 hfloats.1 hleft,
      readableFields_of_admits hdigits rest h.2.2 hfloats.2 hleft⟩

end

end DataUpdateAuthoring

end FrappeController
