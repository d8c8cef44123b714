import FrappeController.PythonText
import FrappeController.JsonText

/-!
# `json.loads`

The reader of Python's `json`: what it accepts, and how it fails. A document is read by recursive
descent over the decoded text. `Reader` holds what the interpreter brings: how deep it lets the
reader call itself, how many digits an integer may have, and how a float's text is read.
-/

namespace FrappeController

/-- How `json.loads` fails. -/
inductive ReadFault where
  /-- `json.JSONDecodeError` -/
  | decode
  /-- the `ValueError` of an integer with too many digits -/
  | digits
  /-- `RecursionError` -/
  | recursion
  /-- what `object_pairs_hook` raises -/
  | hook (e : Exc)
  /-- not a failure of Python's: the reader was started with too little fuel -/
  | fuel
  deriving DecidableEq, Repr

/-- What the interpreter allows and reads. -/
structure Reader where
  /-- Objects and arrays inside each other before `RecursionError`. -/
  depth : ℕ
  /-- `sys.get_int_max_str_digits()` -/
  intDigits : ℕ
  /-- `float(text)` -/
  readFloat : Text → PyFloat

namespace Reader

/-! ## Strings -/

/-- The value of a hexadecimal digit, in either case. -/
def hexDigit? (c : Char) : Option ℕ :=
  if '0' ≤ c ∧ c ≤ '9' then some (c.toNat - 48)
  else if 'a' ≤ c ∧ c ≤ 'f' then some (c.toNat - 87)
  else if 'A' ≤ c ∧ c ≤ 'F' then some (c.toNat - 55)
  else none

/-- Four hexadecimal digits, and what follows them. -/
def hex4? : Text → Option (Fin 0x10000 × Text)
  | a :: b :: c :: d :: rest => do
    let a ← hexDigit? a
    let b ← hexDigit? b
    let c ← hexDigit? c
    let d ← hexDigit? d
    return (Fin.ofNat 0x10000 (4096 * a + 256 * b + 16 * c + d), rest)
  | _ => none

/-- The code point of one UTF-16 unit. -/
def unitPoint (unit : Fin 0x10000) : CodePoint := unit.castLE (by omega)

def isHighSurrogate (unit : Fin 0x10000) : Bool := 0xD800 ≤ unit.val && unit.val ≤ 0xDBFF

def isLowSurrogate (unit : Fin 0x10000) : Bool := 0xDC00 ≤ unit.val && unit.val ≤ 0xDFFF

/-- `Py_UNICODE_JOIN_SURROGATES` -/
def joinSurrogates (high low : Fin 0x10000) : CodePoint :=
  Fin.ofNat 0x110000 (0x10000 + (high.val - 0xD800) * 0x400 + (low.val - 0xDC00))

/-- What `\uXXXX` stands for; a high surrogate takes a following low one with it. -/
def unicodeEscape? (text : Text) : Option (CodePoint × Text) := do
  let (unit, rest) ← hex4? text
  if isHighSurrogate unit then
    match rest with
    | '\\' :: 'u' :: second => do
      let (low, rest') ← hex4? second
      if isLowSurrogate low then return (joinSurrogates unit low, rest')
      else return (unitPoint unit, rest)
    | _ => return (unitPoint unit, rest)
  else return (unitPoint unit, rest)

/-- `_BACKSLASH` -/
def backslash? (c : Char) : Option Char :=
  if c = '"' ∨ c = '\\' ∨ c = '/' then some c
  else if c = 'b' then some (Char.ofNat 8)
  else if c = 'f' then some (Char.ofNat 12)
  else if c = 'n' then some '\n'
  else if c = 'r' then some '\r'
  else if c = 't' then some '\t'
  else none

/-- One character of a string, and what follows it. -/
def scanChar : Text → Option (CodePoint × Text)
  | [] => none
  | c :: rest =>
    if c = '\\' then
      match rest with
      | [] => none
      | d :: rest =>
        if d = 'u' then unicodeEscape? rest
        else (backslash? d).map fun c => (.ofChar c, rest)
    -- `strict=True`
    else if c.toNat < 32 then none
    else some (.ofChar c, rest)

/-- The rest of a string after its opening quote. -/
def scanChars : ℕ → Text → Option (PyStr × Text)
  | 0, _ => none
  | fuel + 1, text =>
    if text.head? = some '"' then some ([], text.tail)
    else do
      let (c, rest) ← scanChar text
      let (s, rest) ← scanChars fuel rest
      return (c :: s, rest)

/-- `scanstring`: each character takes at least one of the text, so the fuel is enough. -/
def scanString (text : Text) : Except ReadFault (PyStr × Text) :=
  match scanChars (text.length + 1) text with
  | some found => .ok found
  | none => .error .decode

/-! ## Numbers and names -/

/-- The digits a text starts with. -/
def digits (text : Text) : Text := text.takeWhile Char.isDigit

def afterDigits (text : Text) : Text := text.dropWhile Char.isDigit

/-- `0|[1-9]\d*` -/
def natural? (text : Text) : Option (Text × Text) :=
  match text with
  | '0' :: rest => some (['0'], rest)
  | text => if digits text = [] then none else some (digits text, afterDigits text)

/-- `-?(?:0|[1-9]\d*)` -/
def integer? : Text → Option (Text × Text)
  | '-' :: rest => (natural? rest).map fun (ds, rest) => ('-' :: ds, rest)
  | text => natural? text

/-- `(\.\d+)?` -/
def fraction : Text → Text × Text
  | '.' :: rest =>
    if digits rest = [] then ([], '.' :: rest) else ('.' :: digits rest, afterDigits rest)
  | text => ([], text)

/-- `[-+]?` -/
def sign : Text → Text × Text
  | '+' :: rest => (['+'], rest)
  | '-' :: rest => (['-'], rest)
  | text => ([], text)

/-- `([eE][-+]?\d+)?` -/
def exponent : Text → Text × Text
  | c :: rest =>
    if (c = 'e' ∨ c = 'E') ∧ digits (sign rest).2 ≠ [] then
      (c :: (sign rest).1 ++ digits (sign rest).2, afterDigits (sign rest).2)
    else ([], c :: rest)
  | [] => ([], [])

/-- `int(text)` of an integer's text. -/
def readInt : Text → ℤ
  | '-' :: ds => -(Nat.ofDigitChars 10 ds 0 : ℤ)
  | ds => Nat.ofDigitChars 10 ds 0

variable (L : Reader)

/-- `_match_number` -/
def scanNumber (text : Text) : Except ReadFault (PyJson × Text) :=
  match integer? text with
  | none => .error .decode
  | some (whole, rest) =>
    let (fractional, rest) := fraction rest
    let (exponential, rest) := exponent rest
    if fractional = [] ∧ exponential = [] then
      if (whole.filter Char.isDigit).length ≤ L.intDigits then .ok (.int (readInt whole), rest)
      else .error .digits
    else .ok (.float (L.readFloat (whole ++ fractional ++ exponential)), rest)

/-- The names of constants. -/
def constants : List (Text × PyJson) :=
  [("null".toList, .null), ("true".toList, .bool true), ("false".toList, .bool false),
    ("NaN".toList, .float .nan), ("Infinity".toList, .float .infinity),
    ("-Infinity".toList, .float .negInfinity)]

/-- What follows a text's start. -/
def after? (start text : Text) : Option Text :=
  if start.isPrefixOf text then some (text.drop start.length) else none

/-- A constant, or a number. -/
def scanToken (text : Text) : Except ReadFault (PyJson × Text) :=
  match constants.findSome? fun (name, value) => (after? name text).map fun rest => (value, rest) with
  | some found => .ok found
  | none => L.scanNumber text

/-! ## Documents -/

def isBlank (c : Char) : Bool := c == ' ' || c == '\t' || c == '\n' || c == '\r'

/-- `WHITESPACE` -/
def skipSpace (text : Text) : Text := text.dropWhile isBlank

/-- `object_pairs_hook` -/
abbrev ObjectHook := List (PyStr × PyJson) → Except Exc (List (PyStr × PyJson))

/-- `mapping[key] = value` -/
def setItem (fields : List (PyStr × PyJson)) (key : PyStr) (value : PyJson) :
    List (PyStr × PyJson) :=
  if fields.any (fun f => f.1 == key) then
    fields.map fun f => if f.1 == key then (key, value) else f
  else fields ++ [(key, value)]

/-- `dict`: the last value of a repeated key. -/
def dict : ObjectHook := fun pairs => .ok (pairs.foldl (fun fields f => setItem fields f.1 f.2) [])

/-- The object of some pairs. -/
def makeObject (hook : ObjectHook) (pairs : List (PyStr × PyJson)) : Except ReadFault PyJson :=
  match hook pairs with
  | .ok fields => .ok (.obj fields)
  | .error e => .error (.hook e)

/-- `Py_EnterRecursiveCall`: how many more calls there may be. -/
def enterRecursiveCall : ℕ → Except ReadFault ℕ
  | 0 => .error .recursion
  | depth + 1 => .ok depth

/-- What follows blanks and a character. -/
def expect (c : Char) (text : Text) : Except ReadFault Text :=
  if (skipSpace text).head? = some c then .ok (skipSpace text).tail else .error .decode

/-- What follows an item: the closing character, or a comma and another one. -/
def scanNext (closing : Char) (text : Text) : Except ReadFault (Bool × Text) :=
  if (skipSpace text).head? = some closing then .ok (true, (skipSpace text).tail)
  else if (skipSpace text).head? = some ',' then .ok (false, (skipSpace text).tail)
  else .error .decode

variable (hook : ObjectHook)

mutual

/-- `scan_once`: the value a text starts with. -/
def scanOnce : ℕ → ℕ → Text → Except ReadFault (PyJson × Text)
  | 0, _, _ => .error .fuel
  | fuel + 1, depth, text =>
    if text.head? = some '"' then do
      let (s, rest) ← scanString text.tail
      return (.str s, rest)
    else if text.head? = some '[' then do
      let depth ← enterRecursiveCall depth
      let (items, rest) ← scanItems fuel depth text.tail
      return (.arr items, rest)
    else if text.head? = some '\x7b' then do
      let depth ← enterRecursiveCall depth
      let (pairs, rest) ← scanPairs fuel depth text.tail
      return (← makeObject hook pairs, rest)
    else L.scanToken text

/-- The items of an array after its opening bracket. -/
def scanItems : ℕ → ℕ → Text → Except ReadFault (List PyJson × Text)
  | 0, _, _ => .error .fuel
  | fuel + 1, depth, text =>
    if (skipSpace text).head? = some ']' then .ok ([], (skipSpace text).tail)
    else do
      let (x, rest) ← scanOnce fuel depth (skipSpace text)
      let (items, rest) ← scanMoreItems fuel depth rest
      return (x :: items, rest)

/-- The items after one item. -/
def scanMoreItems : ℕ → ℕ → Text → Except ReadFault (List PyJson × Text)
  | 0, _, _ => .error .fuel
  | fuel + 1, depth, text => do
    let (closed, rest) ← scanNext ']' text
    if closed then return ([], rest)
    else do
      let (x, rest) ← scanOnce fuel depth (skipSpace rest)
      let (items, rest) ← scanMoreItems fuel depth rest
      return (x :: items, rest)

/-- One field. -/
def scanPair : ℕ → ℕ → Text → Except ReadFault ((PyStr × PyJson) × Text)
  | 0, _, _ => .error .fuel
  | fuel + 1, depth, text => do
    let (key, rest) ← scanString (← expect '"' text)
    let rest ← expect ':' rest
    let (x, rest) ← scanOnce fuel depth (skipSpace rest)
    return ((key, x), rest)

/-- The fields of an object after its opening brace. -/
def scanPairs : ℕ → ℕ → Text → Except ReadFault (List (PyStr × PyJson) × Text)
  | 0, _, _ => .error .fuel
  | fuel + 1, depth, text =>
    if (skipSpace text).head? = some '\x7d' then .ok ([], (skipSpace text).tail)
    else do
      let (pair, rest) ← scanPair fuel depth text
      let (pairs, rest) ← scanMorePairs fuel depth rest
      return (pair :: pairs, rest)

/-- The fields after one field. -/
def scanMorePairs : ℕ → ℕ → Text → Except ReadFault (List (PyStr × PyJson) × Text)
  | 0, _, _ => .error .fuel
  | fuel + 1, depth, text => do
    let (closed, rest) ← scanNext '\x7d' text
    if closed then return ([], rest)
    else do
      let (pair, rest) ← scanPair fuel depth rest
      let (pairs, rest) ← scanMorePairs fuel depth rest
      return (pair :: pairs, rest)

end

/-- `json.loads(text, object_pairs_hook=hook)` -/
def loads (text : Text) : Except ReadFault PyJson :=
  if text.head? = some (Char.ofNat 0xFEFF) then .error .decode
  else do
    let (value, rest) ← L.scanOnce hook (3 * text.length + 3) L.depth (skipSpace text)
    if skipSpace rest = [] then return value else .error .decode

end Reader

end FrappeController
