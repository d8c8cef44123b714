import Mathlib.Data.Rat.Defs
import Mathlib.Tactic.Common
import Mathlib.Algebra.GroupWithZero.Nat
import Mathlib.Algebra.Ring.Int.Defs

/-!
# The Python values and library calls the controller computes with

* `Json`: what `json.loads` returns, with Python's equality (`Json.pyEq`) and the
  `json.dumps(value, sort_keys=True, separators=(",", ":"), ensure_ascii=False)` text
  every hash of the repository is taken over (`Runtime.dumps`);
* `PyJson`: a document whose strings may hold surrogates, which no text can;
* `Runtime`: the library calls that are read here through their results only, SHA-256
  hex digests, `json.loads`, `uuid`, Unicode case folding and float printing. Every
  theorem holds for all of them;
* `DateTime` and `isoformat`, microseconds and their RFC 3339 text.
-/

namespace FrappeController

/-! ## JSON values -/

/-- A Python float: a dyadic rational, or one of the three values JSON has no number for. -/
inductive PyFloat where
  | finite (value : ℚ)
  | infinity
  | negInfinity
  | nan
  deriving DecidableEq, Repr

/-- A decoded JSON document. The fields of an object have pairwise different names. -/
inductive Json where
  | null
  | bool (b : Bool)
  | int (n : ℤ)
  | float (x : PyFloat)
  | str (s : String)
  | arr (items : List Json)
  | obj (fields : List (String × Json))
  deriving Repr, Inhabited

namespace Json

/-- `value.get(key)` on an object, where a missing key reads `None`. -/
def get (fields : List (String × Json)) (key : String) : Json :=
  (fields.lookup key).getD .null

/-- `mapping[key] = value` on a copy. -/
def set (fields : List (String × Json)) (key : String) (value : Json) : List (String × Json) :=
  if fields.any (fun f => f.1 == key) then
    fields.map fun f => if f.1 == key then (key, value) else f
  else fields ++ [(key, value)]

theorem mem_set {fields : List (String × Json)} {key : String} {value : Json}
    {f : String × Json} (h : f ∈ set fields key value) :
    f = (key, value) ∨ (f ∈ fields ∧ f.1 ≠ key) := by
  unfold set at h
  split at h
  · obtain ⟨g, hg, heq⟩ := List.mem_map.mp h
    by_cases hkey : g.1 = key
    · exact .inl (by simpa [hkey] using heq.symm)
    · have : g = f := by simpa [hkey] using heq
      exact .inr ⟨this ▸ hg, this ▸ hkey⟩
  · rename_i habsent
    rcases List.mem_append.mp h with h | h
    · refine .inr ⟨h, fun hkey => habsent ?_⟩
      exact List.any_eq_true.mpr ⟨f, h, by simpa using hkey⟩
    · exact .inl (List.mem_singleton.mp h)

theorem self_mem_set (fields : List (String × Json)) (key : String) (value : Json) :
    (key, value) ∈ set fields key value := by
  unfold set
  split
  · rename_i h
    obtain ⟨f, hf, hkey⟩ := List.any_eq_true.mp h
    exact List.mem_map.mpr ⟨f, hf, by simp [hkey]⟩
  · simp

theorem mem_set_of_ne {fields : List (String × Json)} {key : String} {value : Json}
    {f : String × Json} (h : f ∈ fields) (hne : f.1 ≠ key) : f ∈ set fields key value := by
  unfold set
  split
  · exact List.mem_map.mpr ⟨f, h, by simp [hne]⟩
  · exact List.mem_append_left _ h

/-- Writing the value a field already has changes nothing. -/
theorem set_eq_self {fields : List (String × Json)} {key : String} {value : Json}
    (hmem : (key, value) ∈ fields) (hall : ∀ f ∈ fields, f.1 = key → f = (key, value)) :
    set fields key value = fields := by
  have hany : fields.any (fun f => f.1 == key) = true :=
    List.any_eq_true.mpr ⟨_, hmem, by simp⟩
  rw [set, if_pos hany]
  refine (List.map_congr_left fun f hf => ?_).trans (List.map_id fields)
  by_cases hkey : f.1 = key
  · simp [hall f hf hkey]
  · simp [hkey]

/-- A field that was written reads back. -/
theorem get_set_self (fields : List (String × Json)) (key : String) (value : Json) :
    get (set fields key value) key = value := by
  unfold get set
  split
  · rename_i hany
    induction fields with
    | nil => cases hany
    | cons f fields ih =>
      obtain ⟨name, old⟩ := f
      by_cases hname : name = key
      · simp [hname]
      · have hrest : fields.any (fun f => f.1 == key) = true := by simpa [hname] using hany
        have hskip : (key == name) = false := beq_false_of_ne (Ne.symm hname)
        simpa [List.lookup_cons, hname, hskip] using ih hrest
  · rename_i habsent
    have hnone : fields.lookup key = none := by
      rw [List.lookup_eq_none_iff]
      intro f hf
      have hne : f.1 ≠ key := fun hkey => habsent (List.any_eq_true.mpr ⟨f, hf, by simp [hkey]⟩)
      exact bne_iff_ne.mpr (Ne.symm hne)
    simp [List.lookup_append, hnone]

/-- The other fields read as before. -/
theorem get_set_of_ne (fields : List (String × Json)) {key key' : String} (value : Json)
    (hne : key' ≠ key) : get (set fields key value) key' = get fields key' := by
  have hskip : (key' == key) = false := beq_false_of_ne hne
  unfold get set
  split
  · rename_i hany
    clear hany
    congr 1
    induction fields with
    | nil => rfl
    | cons f fields ih =>
      obtain ⟨name, old⟩ := f
      by_cases hname : name = key
      · simpa [List.lookup_cons, hname, hskip] using ih
      · simp only [beq_iff_eq] at ih
        simp [List.lookup_cons, hname, ih]
  · simp [List.lookup_append, List.lookup_cons, hskip]

/-- `{key: value for key, value in mapping.items() if key not in keys}` -/
def without (fields : List (String × Json)) (keys : List String) : List (String × Json) :=
  fields.filter fun f => !keys.contains f.1

/-- `set(mapping)`, in some order. -/
def keys (fields : List (String × Json)) : List String := fields.map Prod.fst

def str? : Json → Option String
  | .str s => some s
  | _ => none

/-- A text or `None`. -/
def ofOption : Option String → Json
  | some s => .str s
  | none => .null

/-- The number a value counts as in a comparison: `True == 1 == 1.0` in Python. -/
def number? : Json → Option PyFloat
  | .bool b => some (.finite (if b then 1 else 0))
  | .int n => some (.finite n)
  | .float x => some x
  | _ => none

mutual

/-- Python's `==`: numbers by value, arrays by position, objects by name. -/
def pyEq : Json → Json → Bool
  | .null, .null => true
  | .str a, .str b => a == b
  | .arr xs, .arr ys => pyEqItems xs ys
  | .obj xs, .obj ys => xs.length == ys.length && pyEqFields xs ys
  | x, y =>
    match number? x, number? y with
    | some .nan, _ => false
    | some a, some b => a == b
    | _, _ => false

def pyEqItems : List Json → List Json → Bool
  | [], [] => true
  | x :: xs, y :: ys => pyEq x y && pyEqItems xs ys
  | _, _ => false

def pyEqFields : List (String × Json) → List (String × Json) → Bool
  | [], _ => true
  | (key, x) :: xs, ys =>
    (match ys.lookup key with
      | some y => pyEq x y
      | none => false) && pyEqFields xs ys

end

/-- Only a text equals a text. -/
theorem eq_str_of_pyEq {x : Json} {s : String} (h : pyEq x (.str s) = true) : x = .str s := by
  unfold pyEq at h
  cases x with
  | str t => rw [eq_of_beq h]
  | null => cases h
  | arr items => cases h
  | obj fields => cases h
  | bool b => cases h
  | int n => cases h
  | float x => cases x <;> cases h

end Json

/-! ## Documents with surrogates -/

/-- A code point, surrogates included. -/
abbrev CodePoint := Fin 0x110000

/-- A `str`: its code points. -/
abbrev PyStr := List CodePoint

/-- What `json.loads` returns. -/
inductive PyJson where
  | null
  | bool (b : Bool)
  | int (n : ℤ)
  | float (x : PyFloat)
  | str (s : PyStr)
  | arr (items : List PyJson)
  | obj (fields : List (PyStr × PyJson))
  deriving Repr, Inhabited

/-- What `json.loads` does with a text where it gives no `Json`. -/
inductive Unread where
  /-- It raises `json.JSONDecodeError`. -/
  | decode
  /-- It raises the `ValueError` of an integer with too many digits. -/
  | digits
  /-- It raises `RecursionError`. -/
  | recursion
  /-- It returns this value, in which some string holds a surrogate. -/
  | surrogates (value : PyJson)

/-! ## The library calls read through their results -/

/-- A document as text: what JSON columns hold and hashes are taken over. -/
abbrev Text := List Char

/-- A UTC instant: microseconds since 0001-01-01T00:00:00. -/
structure DateTime where
  micros : ℕ
  deriving DecidableEq, Repr

/-- What `datetime.fromisoformat(text)` and the conversion to UTC give. -/
inductive ParsedTime where
  | invalid
  | naive
  | aware (utc : DateTime)
  deriving DecidableEq, Repr

/-- Library functions of the Python runtime, each by what it returns. -/
structure Runtime where
  /-- `hashlib.sha256(text.encode()).hexdigest()` -/
  sha256 : Text → String
  /-- `json.loads(text)`, `none` where it raises or where a string of the value cannot be
  encoded. -/
  loads : Text → Option Json
  /-- What `json.loads(text)` does where `loads` is `none`. -/
  unread : Text → Unread
  /-- `str(uuid.UUID(text))`, `none` where it raises. -/
  uuid : String → Option String
  /-- `str(uuid.uuid5(uuid.UUID(namespace), name))` -/
  uuid5 : String → String → String
  /-- `text.casefold()` -/
  casefold : String → String
  /-- `text.lower()` -/
  lower : String → String
  /-- `datetime.fromisoformat(text.replace("Z", "+00:00")).astimezone(UTC)` -/
  fromisoformat : String → ParsedTime
  /-- `repr(x)` of a finite float. -/
  floatRepr : ℚ → String

/-! ## Compact, key-sorted JSON text -/

/-- The two hexadecimal digits of a control character. -/
def hexByte (n : ℕ) : Text := [Nat.digitChar (n / 16), Nat.digitChar (n % 16)]

/-- A character inside a JSON string, with `ensure_ascii=False`. -/
def escapeChar (c : Char) : Text :=
  if c = '"' then ['\\', '"']
  else if c = '\\' then ['\\', '\\']
  else if c = '\n' then ['\\', 'n']
  else if c = '\r' then ['\\', 'r']
  else if c = '\t' then ['\\', 't']
  else if c.toNat = 8 then ['\\', 'b']
  else if c.toNat = 12 then ['\\', 'f']
  else if c.toNat < 32 then '\\' :: 'u' :: '0' :: '0' :: hexByte c.toNat
  else [c]

def quote (s : String) : Text := '"' :: (s.toList.flatMap escapeChar ++ ['"'])

/-- Insert into a list sorted by the first component (code-point order, as `sort_keys`). -/
def insertByKey {α : Type} (x : String × α) : List (String × α) → List (String × α)
  | [] => [x]
  | y :: rest => if x.1 < y.1 then x :: y :: rest else y :: insertByKey x rest

def sortByKey {α : Type} (xs : List (String × α)) : List (String × α) :=
  xs.foldr insertByKey []

/-- The parts with a comma between them. -/
def commaSeparated : List Text → Text
  | [] => []
  | [x] => x
  | x :: rest => x ++ ',' :: commaSeparated rest

namespace Runtime

variable (R : Runtime)

mutual

/-- `json.dumps(value, sort_keys=True, separators=(",", ":"), ensure_ascii=False)` -/
def dumps : Json → Text
  | .null => "null".toList
  | .bool b => (if b then "true" else "false").toList
  | .int n => (toString n).toList
  | .float (.finite q) => (R.floatRepr q).toList
  | .float .infinity => "Infinity".toList
  | .float .negInfinity => "-Infinity".toList
  | .float .nan => "NaN".toList
  | .str s => quote s
  | .arr items => '[' :: (commaSeparated (dumpsItems items) ++ [']'])
  | .obj fields =>
    '{' :: (commaSeparated ((sortByKey (dumpsFields fields)).map fun f =>
      quote f.1 ++ ':' :: f.2) ++ ['}'])

def dumpsItems : List Json → List Text
  | [] => []
  | x :: xs => dumps x :: dumpsItems xs

def dumpsFields : List (String × Json) → List (String × Text)
  | [] => []
  | (key, x) :: xs => (key, dumps x) :: dumpsFields xs

end


end Runtime

/-! ## Text predicates -/

/-- `re.fullmatch("[0-9a-f]{64}", text)` -/
def isSha256 (text : String) : Bool :=
  text.toList.length == 64 &&
    text.toList.all fun c => ('0' ≤ c && c ≤ '9') || ('a' ≤ c && c ≤ 'f')

/-- The code points `str.strip()` removes. -/
def isSpace (c : Char) : Bool :=
  let n := c.toNat
  (9 ≤ n && n ≤ 13) || (28 ≤ n && n ≤ 32) || n == 0x85 || n == 0xA0 || n == 0x1680
    || (0x2000 ≤ n && n ≤ 0x200A) || n == 0x2028 || n == 0x2029 || n == 0x202F || n == 0x205F
    || n == 0x3000

/-- `text == text.strip()` -/
def isStripped (text : List Char) : Bool :=
  !(text.head?.any isSpace) && !(text.getLast?.any isSpace)

/-- `text.strip()` -/
def strip (text : List Char) : List Char :=
  ((text.dropWhile isSpace).reverse.dropWhile isSpace).reverse

/-- `len(text.encode())` -/
def utf8Length (text : Text) : ℕ := (text.map fun c => c.utf8Size).sum

/-- `text.endswith(suffix)` -/
def endsWith (text suffix : String) : Bool := suffix.toList.isSuffixOf text.toList

/-- `text.startswith(prefix)` -/
def startsWith (text start : String) : Bool := start.toList.isPrefixOf text.toList

/-- `marker in text` -/
def containsText (marker text : String) : Bool :=
  text.toList.tails.any fun rest => marker.toList.isPrefixOf rest

/-- `text.replace("-", "_")` -/
def dashToUnderscore (text : String) : String :=
  String.ofList (text.toList.map fun c => if c = '-' then '_' else c)

/-- A nullable text column, as `value or None` reads it. -/
def orNone (value : Option String) : Option String := value.filter (· ≠ "")

theorem orNone_eq_some {value : Option String} {s : String} :
    orNone value = some s ↔ value = some s ∧ s ≠ "" := by
  simp [orNone, Option.filter_eq_some_iff]

/-- The truth of a nullable text column. -/
def truthy (value : Option String) : Bool := (orNone value).isSome

/-! ## Instants -/

namespace DateTime

instance : LE DateTime := ⟨fun a b => a.micros ≤ b.micros⟩

instance : LT DateTime := ⟨fun a b => a.micros < b.micros⟩

instance (a b : DateTime) : Decidable (a ≤ b) := inferInstanceAs (Decidable (a.micros ≤ b.micros))

instance (a b : DateTime) : Decidable (a < b) := inferInstanceAs (Decidable (a.micros < b.micros))

/-- `value + timedelta(seconds=n)` -/
def addSeconds (value : DateTime) (n : ℕ) : DateTime := ⟨value.micros + n * 1000000⟩

/-- Year, month and day of the day number counted from 0001-01-01 (proleptic Gregorian). -/
def civil (day : ℕ) : ℕ × ℕ × ℕ :=
  -- days are counted from 0000-03-01, so that a leap day ends its year
  let z := day + 306
  let era := z / 146097
  let doe := z % 146097
  let yoe := (doe - doe / 1460 + doe / 36524 - doe / 146096) / 365
  let doy := doe - (365 * yoe + yoe / 4 - yoe / 100)
  let mp := (5 * doy + 2) / 153
  let month := if mp < 10 then mp + 3 else mp - 9
  (yoe + era * 400 + (if month ≤ 2 then 1 else 0), month, doy - (153 * mp + 2) / 5 + 1)

/-- `n` in decimal, with zeros up to `width` digits. -/
def padded (width n : ℕ) : String :=
  let digits := (toString n).toList
  String.ofList (List.replicate (width - digits.length) '0' ++ digits)

/-- The date and the time of day to the second, with `separator` between them. -/
def secondsText (separator : String) (value : DateTime) : String :=
  let seconds := value.micros / 1000000
  let (year, month, day) := civil (seconds / 86400)
  let rest := seconds % 86400
  padded 4 year ++ "-" ++ padded 2 month ++ "-" ++ padded 2 day ++ separator ++
    padded 2 (rest / 3600) ++ ":" ++ padded 2 (rest / 60 % 60) ++ ":" ++ padded 2 (rest % 60)

/-- The microseconds as Python prints them: left out when they are zero. -/
def fraction (value : DateTime) : String :=
  if value.micros % 1000000 = 0 then "" else "." ++ padded 6 (value.micros % 1000000)

/-- `value.isoformat(timespec="microseconds").replace("+00:00", "Z")` -/
def rfc3339 (value : DateTime) : String :=
  secondsText "T" value ++ "." ++ padded 6 (value.micros % 1000000) ++ "Z"

/-- `value.isoformat()` of an aware UTC value. -/
def isoformat (value : DateTime) : String := secondsText "T" value ++ fraction value ++ "+00:00"

/-- `str(value)` of a naive value. -/
def str (value : DateTime) : String := secondsText " " value ++ fraction value

end DateTime

end FrappeController
