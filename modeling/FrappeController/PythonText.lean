import FrappeController.Python

/-!
# Python strings

A Python `str` is a sequence of code points and may hold surrogates, which no UTF-8 text does:
`json.loads` makes one of an unpaired `\uD800`, and `encode` raises on it. `PyJson` is what
`json.loads` returns, `Json` the documents whose texts can be encoded.
-/

namespace FrappeController

/-! ## Code points -/

namespace CodePoint

/-- A numeral is a code point. -/
instance instNeZero : NeZero 0x110000 := ⟨by decide⟩

/-- The code point of a character. -/
def ofChar (c : Char) : CodePoint :=
  ⟨c.toNat, by
    have hvalid := c.valid
    show c.val.toNat < 0x110000
    rcases hvalid with h | h <;> omega⟩

/-- `"\ud800" <= c <= "\udfff"` -/
def isSurrogate (c : CodePoint) : Bool := 0xD800 ≤ c.val && c.val ≤ 0xDFFF

/-- The character of a code point that is no surrogate. -/
def toChar? (c : CodePoint) : Option Char :=
  if c.isSurrogate then none else some (Char.ofNat c.val)

/-- The code point of a character is its number. -/
@[simp] theorem val_ofChar (c : Char) : (ofChar c).val = c.toNat := rfl

/-- A Unicode scalar value is no surrogate. -/
@[simp] theorem isSurrogate_ofChar (c : Char) : (ofChar c).isSurrogate = false := by
  have hvalid := c.valid
  have hrange : c.toNat < 0xD800 ∨ 0xDFFF < c.toNat := by
    rcases hvalid with h | h
    · exact .inl h
    · exact .inr h.1
  rw [isSurrogate, val_ofChar, Bool.and_eq_false_iff, decide_eq_false_iff_not,
    decide_eq_false_iff_not]
  omega

/-- A character is read back from its code point. -/
@[simp] theorem toChar?_ofChar (c : Char) : (ofChar c).toChar? = some c := by
  rw [toChar?, isSurrogate_ofChar, if_neg Bool.false_ne_true, val_ofChar, c.ofNat_toNat]

/-- Two characters with one code point are equal. -/
theorem ofChar_injective : Function.Injective ofChar := by
  intro c d h
  have hsame := congrArg toChar? h
  rw [toChar?_ofChar, toChar?_ofChar] at hsame
  exact Option.some.inj hsame

/-- A code point that is no surrogate is its character's. -/
theorem ofChar_of_toChar? {c : CodePoint} {d : Char} (h : c.toChar? = some d) : c = ofChar d := by
  unfold toChar? at h
  split at h
  · cases h
  · rename_i hsurrogate
    cases h
    have hrange : ¬(0xD800 ≤ c.val ∧ c.val ≤ 0xDFFF) := by
      simpa [isSurrogate] using hsurrogate
    have hvalid : c.val.isValidChar := by
      have hlt := c.isLt
      show c.val < 0xD800 ∨ 0xDFFF < c.val ∧ c.val < 0x110000
      omega
    apply Fin.ext
    show c.val = (Char.ofNat c.val).val.toNat
    rw [Char.ofNat, dif_pos hvalid]
    rfl

end CodePoint

/-! ## Strings -/

namespace PyStr

def ofText (text : Text) : PyStr := text.map CodePoint.ofChar

def ofString (s : String) : PyStr := ofText s.toList

/-- `value.encode()`, decoded again: nothing where it raises `UnicodeEncodeError`. -/
def encode? (s : PyStr) : Option Text := s.mapM CodePoint.toChar?

/-- The text with U+FFFD in the place of every surrogate. -/
def replaced (s : PyStr) : String :=
  String.ofList (s.map fun c => c.toChar?.getD (Char.ofNat 0xFFFD))

/-- Some character is a surrogate. -/
def hasSurrogate (s : PyStr) : Bool := s.any CodePoint.isSurrogate

/-- A text of characters always encodes. -/
@[simp] theorem encode?_ofText (text : Text) : encode? (ofText text) = some text := by
  unfold encode? ofText
  induction text with
  | nil => rfl
  | cons c text ih => simp [ih]

/-- A string that encodes is the text it encodes to. -/
theorem ofText_of_encode? {s : PyStr} {text : Text} (h : encode? s = some text) :
    s = ofText text := by
  unfold encode? at h
  induction s generalizing text with
  | nil =>
    cases h
    rfl
  | cons c s ih =>
    simp only [List.mapM_cons, Option.pure_def, Option.bind_eq_bind, Option.bind_eq_some_iff,
      Option.some.injEq] at h
    obtain ⟨d, hd, rest, hrest, rfl⟩ := h
    show c :: s = CodePoint.ofChar d :: ofText rest
    rw [CodePoint.ofChar_of_toChar? hd, ih hrest]

/-- Two texts that are equal as Python strings are equal. -/
theorem ofText_injective : Function.Injective ofText := by
  intro a b h
  have hsame := congrArg encode? h
  rw [encode?_ofText, encode?_ofText] at hsame
  exact Option.some.inj hsame

/-- Two strings that are equal as Python strings are equal. -/
theorem ofString_injective : Function.Injective ofString :=
  fun _ _ h => String.toList_injective (ofText_injective h)

/-- A string can be encoded where it has no surrogate. -/
theorem encode?_isSome (s : PyStr) : (encode? s).isSome = !s.hasSurrogate := by
  unfold encode? hasSurrogate
  induction s with
  | nil => rfl
  | cons c s ih =>
    rw [List.mapM_cons, List.any_cons, Bool.not_or, ← ih]
    cases hsurrogate : c.isSurrogate with
    | true =>
      have hchar : c.toChar? = none := by rw [CodePoint.toChar?, if_pos hsurrogate]
      rw [hchar]
      rfl
    | false =>
      have hchar : c.toChar? = some (Char.ofNat c.val) := by
        rw [CodePoint.toChar?, hsurrogate]
        rfl
      rw [hchar]
      show (Option.bind (List.mapM CodePoint.toChar? s)
        fun rest => some (Char.ofNat c.val :: rest)).isSome = _
      cases List.mapM CodePoint.toChar? s <;> rfl

/-- Encoding fails exactly at a surrogate. -/
theorem encode?_eq_none {s : PyStr} : encode? s = none ↔ s.hasSurrogate = true := by
  rw [← Option.isNone_iff_eq_none, ← Option.not_isSome, encode?_isSome]
  simp

/-- A text of characters holds no surrogate. -/
@[simp] theorem hasSurrogate_ofText (text : Text) : hasSurrogate (ofText text) = false := by
  have hencoded := encode?_isSome (ofText text)
  rw [encode?_ofText, Option.isSome_some] at hencoded
  simpa using hencoded.symm

/-- The string as a text, where it has no surrogate. -/
def toString? (s : PyStr) : Option String := (encode? s).map String.ofList

/-- A string is read back from its Python form. -/
@[simp] theorem toString?_ofString (s : String) : toString? (ofString s) = some s := by
  rw [toString?, ofString, encode?_ofText, Option.map_some, String.ofList_toList]

/-- What reads back as a string is that string. -/
theorem ofString_of_toString? {s : PyStr} {text : String} (h : toString? s = some text) :
    ofString text = s := by
  obtain ⟨chars, hchars, rfl⟩ := Option.map_eq_some_iff.mp h
  rw [ofString, String.toList_ofList, ofText_of_encode? hchars]

/-- A match of a pattern of ASCII characters: no other string has one. -/
def fullmatch (pattern : String → Bool) (s : PyStr) : Bool := (toString? s).any pattern

/-- A pattern matches a string as it matches its Python form. -/
@[simp] theorem fullmatch_ofString (pattern : String → Bool) (s : String) :
    fullmatch pattern (ofString s) = pattern s := by
  rw [fullmatch, toString?_ofString, Option.any_some]

/-- The code points `str.strip()` removes. -/
def isSpacePoint (c : CodePoint) : Bool := (c.toChar?).any isSpace

/-- `s == s.strip()` -/
def isStripped (s : PyStr) : Bool := !(s.head?.any isSpacePoint) && !(s.getLast?.any isSpacePoint)

/-- `s.rstrip(c)` -/
def rstrip (c : Char) (s : PyStr) : PyStr := (s.reverse.dropWhile (· == .ofChar c)).reverse

/-- `c in s` -/
def hasChar (c : Char) (s : PyStr) : Bool := s.contains (.ofChar c)

/-- `marker in s` -/
def contains (marker : String) (s : PyStr) : Bool :=
  s.tails.any fun rest => (ofString marker).isPrefixOf rest

end PyStr

/-! ## Documents -/

namespace PyJson

mutual

/-- A document without surrogates. -/
def ofJson : Json → PyJson
  | .null => .null
  | .bool b => .bool b
  | .int n => .int n
  | .float x => .float x
  | .str s => .str (.ofString s)
  | .arr items => .arr (ofItems items)
  | .obj fields => .obj (ofFields fields)

def ofItems : List Json → List PyJson
  | [] => []
  | x :: rest => ofJson x :: ofItems rest

def ofFields : List (String × Json) → List (PyStr × PyJson)
  | [] => []
  | (key, x) :: rest => (.ofString key, ofJson x) :: ofFields rest

end

mutual

/-- The document, where each of its strings can be encoded. -/
def toJson? : PyJson → Option Json
  | .null => some .null
  | .bool b => some (.bool b)
  | .int n => some (.int n)
  | .float x => some (.float x)
  | .str s => (s.encode?).map fun text => .str (String.ofList text)
  | .arr items => (toItems? items).map .arr
  | .obj fields => (toFields? fields).map .obj

def toItems? : List PyJson → Option (List Json)
  | [] => some []
  | x :: rest =>
    match toJson? x, toItems? rest with
    | some x, some rest => some (x :: rest)
    | _, _ => none

def toFields? : List (PyStr × PyJson) → Option (List (String × Json))
  | [] => some []
  | (key, x) :: rest =>
    match key.encode?, toJson? x, toFields? rest with
    | some key, some x, some rest => some ((String.ofList key, x) :: rest)
    | _, _, _ => none

end

mutual

/-- The document with U+FFFD in the place of every surrogate. -/
def replaced : PyJson → Json
  | .null => .null
  | .bool b => .bool b
  | .int n => .int n
  | .float x => .float x
  | .str s => .str s.replaced
  | .arr items => .arr (replacedItems items)
  | .obj fields => .obj (replacedFields fields)

def replacedItems : List PyJson → List Json
  | [] => []
  | x :: rest => replaced x :: replacedItems rest

def replacedFields : List (PyStr × PyJson) → List (String × Json)
  | [] => []
  | (key, x) :: rest => (key.replaced, replaced x) :: replacedFields rest

end

mutual

/-- A JSON value is read back from its Python form. -/
@[simp] theorem toJson?_ofJson : ∀ v : Json, toJson? (ofJson v) = some v
  | .null | .bool _ | .int _ | .float _ => rfl
  | .str s => by
    show ((PyStr.ofText s.toList).encode?).map _ = _
    rw [PyStr.encode?_ofText, Option.map_some, String.ofList_toList]
  | .arr items => by
    show (toItems? (ofItems items)).map _ = _
    rw [toItems?_ofItems items, Option.map_some]
  | .obj fields => by
    show (toFields? (ofFields fields)).map _ = _
    rw [toFields?_ofFields fields, Option.map_some]

/-- The items of an array are read back one by one. -/
theorem toItems?_ofItems : ∀ items : List Json, toItems? (ofItems items) = some items
  | [] => rfl
  | x :: rest => by
    rw [ofItems, toItems?, toJson?_ofJson x, toItems?_ofItems rest]

/-- The fields of an object are read back one by one. -/
theorem toFields?_ofFields : ∀ fields : List (String × Json),
    toFields? (ofFields fields) = some fields
  | [] => rfl
  | (key, x) :: rest => by
    rw [ofFields, toFields?, toJson?_ofJson x, toFields?_ofFields rest, PyStr.ofString,
      PyStr.encode?_ofText]
    simp only [String.ofList_toList]

end

/-- The text a string encodes to, taken as a string, is the string. -/
theorem ofString_of_encode? {s : PyStr} {text : Text} (h : s.encode? = some text) :
    PyStr.ofString (String.ofList text) = s := by
  rw [PyStr.ofString, String.toList_ofList]
  exact (PyStr.ofText_of_encode? h).symm

mutual

/-- What reads back as a JSON value is that value. -/
theorem ofJson_of_toJson? : ∀ {v : PyJson} {j : Json}, toJson? v = some j → ofJson j = v
  | .null, j, h | .bool _, j, h | .int _, j, h | .float _, j, h => by
    cases h
    rfl
  | .str s, j, h => by
    obtain ⟨text, htext, rfl⟩ := Option.map_eq_some_iff.mp h
    show PyJson.str (PyStr.ofString (String.ofList text)) = _
    rw [ofString_of_encode? htext]
  | .arr items, j, h => by
    obtain ⟨items', hitems, rfl⟩ := Option.map_eq_some_iff.mp h
    show PyJson.arr (ofItems items') = _
    rw [ofItems_of_toItems? hitems]
  | .obj fields, j, h => by
    obtain ⟨fields', hfields, rfl⟩ := Option.map_eq_some_iff.mp h
    show PyJson.obj (ofFields fields') = _
    rw [ofFields_of_toFields? hfields]

/-- What reads back as a list of values is that list. -/
theorem ofItems_of_toItems? : ∀ {items : List PyJson} {items' : List Json},
    toItems? items = some items' → ofItems items' = items
  | [], items', h => by
    cases h
    rfl
  | x :: rest, items', h => by
    unfold toItems? at h
    split at h
    · rename_i hx hrest
      cases h
      rw [ofItems, ofJson_of_toJson? hx, ofItems_of_toItems? hrest]
    · cases h

/-- What reads back as a list of fields is that list. -/
theorem ofFields_of_toFields? : ∀ {fields : List (PyStr × PyJson)} {fields' : List (String × Json)},
    toFields? fields = some fields' → ofFields fields' = fields
  | [], fields', h => by
    cases h
    rfl
  | (key, x) :: rest, fields', h => by
    unfold toFields? at h
    split at h
    · rename_i hkey hx hrest
      cases h
      rw [ofFields, ofJson_of_toJson? hx, ofFields_of_toFields? hrest, ofString_of_encode? hkey]
    · cases h

end

/-- Two JSON values with one Python form are equal. -/
theorem ofJson_injective : Function.Injective ofJson := by
  intro a b h
  have hsame := congrArg toJson? h
  rw [toJson?_ofJson, toJson?_ofJson] at hsame
  exact Option.some.inj hsame

/-- The fields are carried over pointwise. -/
theorem ofFields_eq_map (fields : List (String × Json)) :
    ofFields fields = fields.map fun f => (PyStr.ofString f.1, ofJson f.2) := by
  induction fields with
  | nil => rfl
  | cons f rest ih =>
    rw [ofFields, ih]
    rfl

/-- The items are carried over pointwise. -/
theorem ofItems_eq_map (items : List Json) : ofItems items = items.map ofJson := by
  induction items with
  | nil => rfl
  | cons x rest ih =>
    rw [ofItems, ih]
    rfl

end PyJson

end FrappeController
