import FrappeController.Inventory
import FrappeController.Library.Keyed
import FrappeController.LifecycleAuthoring
import Mathlib.Data.List.DropRight
import Mathlib.Data.List.Lex

/-!
# `source_data.py`: records of the external catalog

The schemas of `source_data_schema.json` and the checks of the records that are browsed, added and
edited. A record is any value `json.loads` returns.
-/

namespace FrappeController

/-- `value.strip()` -/
def PyStr.strip (s : PyStr) : PyStr :=
  (s.dropWhile PyStr.isSpacePoint).rdropWhile PyStr.isSpacePoint

namespace SourceCatalog

open PyJson

/-- How a call ends without a result. -/
inductive SourceFault where
  /-- `SourceDataError(message)` -/
  | refused (message : String)
  /-- An exception no handler names. -/
  | raised (exception : String)
  deriving DecidableEq, Repr

/-- The conversions between Python's numbers and texts. -/
structure NumberLibrary extends StrLibrary where
  /-- `int(s)`, nothing where it raises `ValueError` -/
  int : PyStr → Option ℤ
  /-- `float(s)`, nothing where it raises `ValueError` -/
  float : PyStr → Option PyFloat
  /-- `float(n)`, nothing where it raises `OverflowError` -/
  floatOfInt : ℤ → Option PyFloat
  /-- `repr(x)` -/
  floatRepr : PyFloat → String

/-! ## Schemas -/

/-- One field of a schema. -/
structure Field where
  name : String
  /-- `field["type"] in {"integer", "number"}` -/
  number : Bool := false
  maxLength : ℕ := 0
  minimum : ℚ := 0
  maximum : ℚ := 0
  nullable : Bool := false

structure Catalog where
  singular : String
  required : List String
  fields : List Field

/-- The floats `0.1` and `999.9`. -/
def leastSize : ℚ := 3602879701896397 / 36028797018963968

@[inherit_doc leastSize]
def greatestSize : ℚ := 8795213412905779 / 8796093022208

def vehicles : Catalog where
  singular := "vehicle"
  required := ["brand", "model"]
  fields := [{ name := "brand", maxLength := 100 }, { name := "model", maxLength := 100 },
    { name := "year", number := true, nullable := true },
    { name := "engine", maxLength := 100, nullable := true },
    { name := "structureType", maxLength := 100 }]

/-- A text of a tire that may be null. -/
def optionalText (name : String) (maxLength : ℕ) : Field := { name, maxLength, nullable := true }

/-- A size of a tire. -/
def size (name : String) : Field :=
  { name, number := true, minimum := leastSize, maximum := greatestSize, nullable := true }

def tires : Catalog where
  singular := "tire"
  required := ["tire_name"]
  fields := [{ name := "tire_name", maxLength := 255 }, optionalText "tire_size" 50,
    optionalText "brand" 100, optionalText "tire_type" 50, optionalText "model" 100,
    optionalText "aspect_ratio" 100, optionalText "load_index" 20,
    optionalText "max_inflation_pressure" 20, optionalText "max_load" 30,
    optionalText "product_code" 50, size "rim_diameter", size "section_width",
    optionalText "sidewall" 50, optionalText "speed_index" 20, optionalText "tread_rating_utqg" 20]

def colors : Catalog where
  singular := "color"
  required := ["colorNameEN", "colorNameAR"]
  fields := [{ name := "colorNameEN", maxLength := 100 }, { name := "colorNameAR", maxLength := 100 }]

/-- `CATALOGS` -/
def catalogs : List (String × Catalog) :=
  [("vehicles", vehicles), ("tires", tires), ("colors", colors)]

/-- `require_catalog` -/
def requireCatalog (resource : String) : Except SourceFault Catalog :=
  match catalogs.lookup resource with
  | some catalog => .ok catalog
  | none => .error (.refused "Unknown source catalog.")

/-! ## Values -/

def invalid {α : Type} (label : String) : Except SourceFault α :=
  .error (.refused ("Invalid " ++ label ++ "."))

variable (lib : NumberLibrary)

/-- `int(value)` of a text or an integer. -/
def integer? : PyJson → Option ℤ
  | .int n => some n
  | .str s => lib.int s
  | _ => none

/-- `_integer` -/
def integer (value : PyJson) (label : String) (minimum maximum : ℤ) : Except SourceFault ℤ :=
  match integer? lib value with
  | some n => if minimum ≤ n ∧ n ≤ maximum then .ok n else invalid label
  | none => invalid label

/-- A finite number between the bounds of the field. -/
def bounded (field : Field) (x : PyFloat) : Except SourceFault PyJson :=
  match x with
  | .finite q => if field.minimum ≤ q ∧ q ≤ field.maximum then .ok (.float x) else invalid field.name
  | _ => invalid field.name

/-- A number that is not a year or an id. -/
def number (field : Field) : PyJson → Except SourceFault PyJson
  | .float x => bounded field x
  | .int n =>
    match lib.floatOfInt n with
    | some x => bounded field x
    | none => .error (.raised "OverflowError")
  | .str s =>
    match lib.float s with
    | some x => bounded field x
    | none => invalid field.name
  | _ => invalid field.name

/-- `ord(char) < 32 or ord(char) == 127` -/
def isControl (c : CodePoint) : Bool := c.val < 32 || c.val == 127

/-- A text, trimmed. -/
def trimmedText (field : Field) (required : Bool) : PyJson → Except SourceFault PyJson
  | .str s =>
    if (required = true ∧ s.strip = []) ∨ field.maxLength < s.strip.length
        ∨ s.strip.any isControl = true then invalid field.name
    else .ok (.str s.strip)
  | _ => invalid field.name

/-- The value of one field. -/
def normalizeValue (field : Field) (required : Bool) (value : PyJson) :
    Except SourceFault PyJson :=
  match value with
  | .null =>
    if field.nullable then .ok .null else .error (.refused (field.name ++ " cannot be null."))
  | value =>
    if field.number then
      if field.name = "year" then return .int (← integer lib value field.name 1886 2200)
      else if field.name = "id" then return .int (← integer lib value field.name 1 2147483647)
      else number lib field value
    else trimmedText field required value

/-! ## Records -/

/-- The combined display name of a vehicle, its length. -/
def displayLength (result : Fields) : ℕ :=
  match field? result "brand", field? result "model" with
  | some (.str brand), some (.str model) =>
    brand.length + 1 + model.length + match field? result "year" with
      | some (.int year) => if year = 0 then 0 else 1 + (toString year).length
      | _ => 0
  | _, _ => 0

/-- `{**fields, "id": {...}}` when filtering. -/
def allowedFields (catalog : Catalog) (filtering : Bool) : List Field :=
  if filtering then
    catalog.fields ++ [{ name := "id", number := true, minimum := 1, maximum := 2147483647 }]
  else catalog.fields

/-- `fields[key]` -/
def fieldNamed? (fields : List Field) (key : PyStr) : Option Field :=
  fields.find? fun field => PyStr.ofString field.name == key

/-- One entry of the result. -/
def normalizeEntry (fields : List Field) (required : List String) (entry : PyStr × PyJson) :
    Except SourceFault (PyStr × PyJson) :=
  match fieldNamed? fields entry.1 with
  | none => .error (.raised "KeyError")
  | some field => do
    return (entry.1, ← normalizeValue lib field (required.contains field.name) entry.2)

/-- The keys of the schema that a record to be added must fill. -/
def requiredNames (catalog : Catalog) (filtering : Bool) : List String :=
  if filtering then [] else catalog.required

/-- The checks of a record against the schema of its catalog. -/
def validateRecord (resource : String) (catalog : Catalog) (record : Fields)
    (filtering partialRecord : Bool) : Except SourceFault Fields :=
  if !keysWithin record ((allowedFields catalog filtering).map (·.name)) then
    .error (.refused "Supply only supported catalog fields.")
  else if !filtering && !partialRecord
      && catalog.required.any (fun name => (field? record name).isNone) then
    .error (.refused ("Missing required catalog fields: "
      ++ ", ".intercalate catalog.required ++ "."))
  else do
    let result ← record.mapM
      (normalizeEntry lib (allowedFields catalog filtering) (requiredNames catalog filtering))
    if resource = "vehicles" ∧ 150 < displayLength result then
      .error (.refused "The combined vehicle name must fit 150 characters.")
    else return result

/-- `validate_fields` -/
def validateFields (resource : String) (record : PyJson) (filtering partialRecord : Bool) :
    Except SourceFault Fields := do
  let catalog ← requireCatalog resource
  match record with
  | .obj record => validateRecord lib resource catalog record filtering partialRecord
  | _ => .error (.refused "Supply only supported catalog fields.")

/-- `validate_edit_changes` -/
def validateEditChanges (resource : String) (changes : PyJson) : Except SourceFault Fields := do
  let result ← validateFields lib resource changes false true
  if result = [] then .error (.refused "Supply at least one changed field.") else return result

/-! ## Batches -/

/-- What `json.dumps` writes for a code point of a string. -/
def escapePoint (c : CodePoint) : Text :=
  let n := c.val
  if n = 34 then ['\\', '"']
  else if n = 92 then ['\\', '\\']
  else if n = 8 then ['\\', 'b']
  else if n = 9 then ['\\', 't']
  else if n = 10 then ['\\', 'n']
  else if n = 12 then ['\\', 'f']
  else if n = 13 then ['\\', 'r']
  else if 32 ≤ n ∧ n < 127 then [Char.ofNat n]
  else if n < 0x10000 then Inventory.unicodeEscape n
  else Inventory.unicodeEscape (0xD800 + (n - 0x10000) / 0x400)
    ++ Inventory.unicodeEscape (0xDC00 + (n - 0x10000) % 0x400)

def dumpsString (s : PyStr) : Text := '"' :: (s.flatMap escapePoint ++ ['"'])

/-- `json.dumps(value)` of a value of a record. -/
def dumpsValue : PyJson → Text
  | .null => "null".toList
  | .bool b => (if b then "true" else "false").toList
  | .int n => (toString n).toList
  | .float x => (lib.floatRepr x).toList
  | .str s => dumpsString s
  | .arr _ | .obj _ => []

/-- `text.casefold() if isinstance(text, str) else text` -/
def casefolded : PyJson → PyJson
  | .str s => .str (lib.casefold s)
  | value => value

/-- A record without the case of its texts. -/
def foldedFields (record : Fields) : Fields := record.map fun entry => (entry.1, casefolded lib entry.2)

/-- `identity`: `json.dumps({...}, sort_keys=True)` -/
def identity (record : Fields) : Text :=
  '\x7b' :: ([',', ' '].intercalate ((Keyed.sortOn Prod.fst (foldedFields lib record)).map fun entry =>
    dumpsString entry.1 ++ ':' :: ' ' :: dumpsValue lib entry.2) ++ ['\x7d'])

/-- The loop over the rows, `index` the number of the next one. -/
def addRows (resource : String) : ℕ → List Text → List PyJson → Except SourceFault (List Fields)
  | _, _, [] => .ok []
  | index, seen, row :: rest =>
    match validateFields lib resource row false false with
    | .error (.refused message) =>
      .error (.refused ("Row " ++ toString index ++ ": " ++ message))
    | .error (.raised exception) => .error (.raised exception)
    | .ok value =>
      if seen.contains (identity lib value) then
        .error (.refused ("Row " ++ toString index ++ ": duplicate record in this batch."))
      else do return value :: (← addRows resource (index + 1) (identity lib value :: seen) rest)

/-- `validate_add_records` -/
def validateAddRecords (records : PyJson) (resource : String) : Except SourceFault (List Fields) := do
  let _ ← requireCatalog resource
  match records with
  | .arr rows =>
    if 1 ≤ rows.length ∧ rows.length ≤ 100 then addRows lib resource 1 [] rows
    else .error (.refused "Supply between 1 and 100 rows.")
  | _ => .error (.refused "Supply between 1 and 100 rows.")

end SourceCatalog

end FrappeController
