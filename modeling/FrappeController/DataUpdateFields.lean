import FrappeController.DataUpdateValues

/-!
# The fields of a data update

What the checks of the single fields of a payload accept they accept again as they returned it:
texts and names as they are, instants in their one layout, filters and changes with their values in
normal form.
-/

namespace FrappeController
namespace DataUpdateAuthoring

open PyJson
open Reader (setItem keys_ofFields)
open Transaction (bind_eq_ok)

variable {lib : TextLibrary} {R : Runtime} {L : Reader}

/-! ## Fields -/

/-- Two strings are equal as Python strings exactly when they are equal. -/
theorem beq_ofString (a b : String) : (PyStr.ofString a == PyStr.ofString b) = (a == b) := by
  rw [Bool.eq_iff_iff, beq_iff_eq, beq_iff_eq]
  exact PyStr.ofString_injective.eq_iff

/-- A lookup tries the first field, then the rest. -/
theorem field?_cons (name key : String) (x : PyJson) (rest : Fields) :
    field? ((.ofString name, x) :: rest) key = if key = name then some x else field? rest key := by
  rw [field?, List.lookup_cons, beq_ofString]
  by_cases hname : key = name
  · rw [if_pos hname, beq_iff_eq.mpr hname]
  · rw [if_neg hname, beq_false_of_ne hname]
    rfl

/-- `get` tries the first field, then the rest. -/
theorem field_cons (name key : String) (x : PyJson) (rest : Fields) :
    field ((.ofString name, x) :: rest) key = if key = name then x else field rest key := by
  rw [field, field?_cons]
  split <;> rfl

/-- The keys are the names when none is foreign and none is missing. -/
theorem sameKeys_iff {fields : Fields} {names : List String} :
    sameKeys fields names = true ↔
      (∀ f ∈ fields, f.1 ∈ names.map PyStr.ofString)
        ∧ ∀ name ∈ names, (field? fields name).isSome = true := by
  rw [sameKeys, Bool.and_eq_true, keysWithin, List.all_eq_true, List.all_eq_true]
  simp only [List.contains_iff_mem]

/-- The keys of `fields` are the names, in some order. -/
theorem sameKeys_of_perm {fields : Fields} {names : List String}
    (h : (fields.map Prod.fst).Perm (names.map PyStr.ofString)) : sameKeys fields names = true := by
  refine sameKeys_iff.mpr ⟨fun f hf => h.mem_iff.mp (List.mem_map_of_mem hf), fun name hname => ?_⟩
  have hkey : PyStr.ofString name ∈ fields.map Prod.fst :=
    h.mem_iff.mpr (List.mem_map_of_mem hname)
  obtain ⟨f, hf, hsame⟩ := List.mem_map.mp hkey
  rw [field?, List.lookup_isSome_iff]
  exact ⟨f, hf, by rw [hsame, beq_self_eq_true]⟩

/-- A field of a document is looked up in it. -/
theorem lookup_ofFields (fields : List (String × Json)) (key : String) :
    field? (ofFields fields) key = (fields.lookup key).map ofJson := by
  induction fields with
  | nil => rfl
  | cons f rest ih =>
    obtain ⟨name, x⟩ := f
    rw [ofFields, field?_cons, ih, List.lookup_cons]
    by_cases hname : key = name
    · rw [if_pos hname, beq_iff_eq.mpr hname]
      rfl
    · rw [if_neg hname, beq_false_of_ne hname]

/-- A field of a document read back. -/
theorem field_sorted {fields : List (String × Json)} (hkeys : (Json.keys fields).Nodup)
    (key : String) : field (ofFields (sortByKey (Json.sortedFields fields))) key
      = ofJson (Json.get fields key).sorted := by
  rw [← Json.getField_sorted hkeys, field, lookup_ofFields, Json.get]
  cases (sortByKey (Json.sortedFields fields)).lookup key <;> rfl

/-- Sorting the fields of a document keeps its keys. -/
theorem sameKeys_sorted {fields : List (String × Json)} {names : List String}
    (hkeys : Json.keys fields = names) :
    sameKeys (ofFields (sortByKey (Json.sortedFields fields))) names = true := by
  apply sameKeys_of_perm
  rw [← hkeys, ← keys_ofFields]
  exact keys_sortedFields fields

/-! ## Setting a field -/

/-- Setting a field that is there keeps the keys and their order. -/
theorem keys_setItem_of_mem {fields : Fields} {key : PyStr} {x : PyJson}
    (hkey : key ∈ fields.map Prod.fst) :
    (setItem fields key x).map Prod.fst = fields.map Prod.fst := by
  obtain ⟨f, hf, hsame⟩ := List.mem_map.mp hkey
  have hany : fields.any (fun f => f.1 == key) = true :=
    List.any_eq_true.mpr ⟨f, hf, by rw [hsame, beq_self_eq_true]⟩
  rw [setItem, if_pos hany, List.map_map]
  apply List.map_congr_left
  intro g _
  show (if g.1 == key then (key, x) else g).1 = g.1
  by_cases hg : g.1 = key
  · rw [if_pos (beq_iff_eq.mpr hg), hg]
  · rw [if_neg (by simpa using hg)]

/-- A new field is appended. -/
theorem setItem_of_notMem {fields : Fields} {key : PyStr} {x : PyJson}
    (hkey : key ∉ fields.map Prod.fst) : setItem fields key x = fields ++ [(key, x)] := by
  have hany : ¬fields.any (fun f => f.1 == key) = true := by
    intro h
    obtain ⟨f, hf, hsame⟩ := List.any_eq_true.mp h
    exact hkey (List.mem_map.mpr ⟨f, hf, eq_of_beq hsame⟩)
  rw [setItem, if_neg hany]

/-- Every field after a write is the written one or an old one. -/
theorem mem_setItem {fields : Fields} {key : PyStr} {x : PyJson} {f : PyStr × PyJson}
    (h : f ∈ setItem fields key x) : f = (key, x) ∨ f ∈ fields := by
  unfold setItem at h
  split at h
  · obtain ⟨g, hg, heq⟩ := List.mem_map.mp h
    by_cases hkey : (g.1 == key) = true
    · rw [if_pos hkey] at heq
      exact .inl heq.symm
    · rw [if_neg hkey] at heq
      exact .inr (heq ▸ hg)
  · rcases List.mem_append.mp h with h | h
    · exact .inr h
    · exact .inl (List.mem_singleton.mp h)

/-- Setting a field repeats no key. -/
theorem nodup_setItem {fields : Fields} (key : PyStr) (x : PyJson)
    (hnodup : (fields.map Prod.fst).Nodup) : ((setItem fields key x).map Prod.fst).Nodup := by
  by_cases hkey : key ∈ fields.map Prod.fst
  · rw [keys_setItem_of_mem hkey]
    exact hnodup
  · rw [setItem_of_notMem hkey, List.map_append]
    apply List.Nodup.append hnodup (List.nodup_singleton key)
    intro k hk hmem
    rw [List.mem_singleton.mp hmem] at hk
    exact hkey hk

/-- Setting a field adds one at most. -/
theorem length_setItem (fields : Fields) (key : PyStr) (x : PyJson) :
    0 < (setItem fields key x).length ∧ (setItem fields key x).length ≤ fields.length + 1 := by
  unfold setItem
  split
  · rename_i hany
    obtain ⟨f, hf, -⟩ := List.any_eq_true.mp hany
    have hpos := List.length_pos_of_mem hf
    rw [List.length_map]
    omega
  · rw [List.length_append, List.length_singleton]
    omega

/-- The field that is set reads as set, the others as before. -/
theorem field?_setItem (fields : Fields) (name key : String) (x : PyJson) :
    field? (setItem fields (.ofString name) x) key
      = if key = name then some x else field? fields key := by
  by_cases hmem : PyStr.ofString name ∈ fields.map Prod.fst
  · have hany : fields.any (fun f => f.1 == PyStr.ofString name) = true := by
      obtain ⟨f, hf, hsame⟩ := List.mem_map.mp hmem
      exact List.any_eq_true.mpr ⟨f, hf, by rw [hsame, beq_self_eq_true]⟩
    rw [setItem, if_pos hany]
    clear hany
    unfold field?
    -- the first field of that name is replaced, and so are its repetitions, which no lookup reaches
    induction fields with
    | nil => cases hmem
    | cons f rest ih =>
      obtain ⟨k, y⟩ := f
      rw [List.map_cons]
      by_cases hk : k = .ofString name
      · subst hk
        rw [if_pos (beq_self_eq_true _), List.lookup_cons, List.lookup_cons, beq_ofString]
        by_cases hname : key = name
        · rw [if_pos hname, beq_iff_eq.mpr hname]
        · rw [if_neg hname, beq_false_of_ne hname]
          by_cases hrest : PyStr.ofString name ∈ rest.map Prod.fst
          · rw [ih hrest, if_neg hname]
          -- behind it the name does not occur again
          · have hid : ∀ f ∈ rest,
                (fun f : PyStr × PyJson => if f.1 == .ofString name then (.ofString name, x) else f) f
                  = id f := by
              intro f hf
              have hne : f.1 ≠ .ofString name := fun hsame => hrest (List.mem_map.mpr ⟨f, hf, hsame⟩)
              exact if_neg (by simpa using hne)
            rw [List.map_congr_left hid, List.map_id]
      · have hrest : PyStr.ofString name ∈ rest.map Prod.fst := by
          rcases List.mem_cons.mp hmem with h | h
          · exact absurd h.symm hk
          · exact h
        rw [if_neg (by simpa using hk), List.lookup_cons, List.lookup_cons, ih hrest]
        by_cases hname : key = name
        · have hskip : (PyStr.ofString key == k) = false := by
            apply beq_false_of_ne
            rw [hname]
            exact Ne.symm hk
          rw [hskip, if_pos hname]
        · rw [if_neg hname, if_neg hname]
  -- a new name is appended behind all others
  · rw [setItem_of_notMem hmem]
    unfold field?
    rw [List.lookup_append]
    by_cases hname : key = name
    · have hnone : fields.lookup (PyStr.ofString key) = none := by
        rw [List.lookup_eq_none_iff]
        intro f hf
        have hne : PyStr.ofString key ≠ f.1 := by
          rw [hname]
          exact fun hsame => hmem (List.mem_map.mpr ⟨f, hf, hsame.symm⟩)
        exact bne_iff_ne.mpr hne
      rw [if_pos hname, hnone, List.lookup_cons, hname, beq_self_eq_true]
      rfl
    · rw [if_neg hname, List.lookup_cons, beq_ofString, beq_false_of_ne hname]
      show (List.lookup _ fields).or none = _
      rw [Option.or_none]

/-- `get` after a write finds the written field, and the others as before. -/
theorem field_setItem (fields : Fields) (name key : String) (x : PyJson) :
    field (setItem fields (.ofString name) x) key = if key = name then x else field fields key := by
  rw [field, field?_setItem]
  split <;> rfl

/-- Setting a field of the contract keeps the contract. -/
theorem sameKeys_setItem {fields : Fields} {names : List String} (h : sameKeys fields names = true)
    {name : String} (hname : name ∈ names) (x : PyJson) :
    sameKeys (setItem fields (.ofString name) x) names = true := by
  obtain ⟨hkeys, hall⟩ := sameKeys_iff.mp h
  refine sameKeys_iff.mpr ⟨fun f hf => ?_, fun other hother => ?_⟩
  · rcases mem_setItem hf with rfl | hf
    · exact List.mem_map_of_mem hname
    · exact hkeys f hf
  · rw [field?_setItem]
    split
    · rfl
    · exact hall other hother

/-! ## Texts and names -/

/-- `_text` accepts the strings in NFC that are trimmed, printable and short, and returns them as
they are. -/
theorem trimmedText_eq_ok {maximum : ℕ} {raw : PyJson} {s : PyStr} :
    trimmedText lib maximum raw = .ok s ↔
      raw = .str s ∧ s ≠ [] ∧ s.isStripped = true ∧ lib.nfc s = s
        ∧ (∃ text, s.encode? = some text ∧ utf8Length text ≤ maximum) ∧ isPrintable s = true := by
  cases raw with
  | str s' =>
    simp only [trimmedText, bind_eq_ok, require_eq_ok, encodedLength_eq_ok, exists_const, pure,
      Except.pure, Except.ok.injEq, Bool.and_eq_true, Bool.not_eq_true', decide_eq_true_eq,
      beq_iff_eq, List.isEmpty_eq_false_iff, PyJson.str.injEq]
    constructor
    · rintro ⟨⟨⟨hne, hstripped⟩, hnfc⟩, n, ⟨text, htext, rfl⟩, ⟨hlength, hprintable⟩, rfl⟩
      exact ⟨rfl, hne, hstripped, hnfc, ⟨text, htext, hlength⟩, hprintable⟩
    · rintro ⟨rfl, hne, hstripped, hnfc, ⟨text, htext, hlength⟩, hprintable⟩
      exact ⟨⟨⟨hne, hstripped⟩, hnfc⟩, _, ⟨text, htext, rfl⟩, ⟨hlength, hprintable⟩, rfl⟩
  | _ =>
    constructor
    · intro h
      cases h
    · intro h
      cases h.1

/-- An accepted field name is returned as it is. -/
theorem fieldName_eq_ok {raw : PyJson} {s : PyStr} (h : fieldName lib raw = .ok s) :
    raw = .str s := by
  cases raw with
  | str s' =>
    obtain ⟨-, -, h⟩ := bind_eq_ok.mp h
    obtain ⟨-, -, h⟩ := bind_eq_ok.mp h
    rw [Except.ok.inj h]
  | _ => cases h

/-- An accepted document type is returned as it is. -/
theorem doctype_eq_ok {raw : PyJson} {s : PyStr} (h : doctype lib raw = .ok s) :
    raw = .str s := by
  cases raw with
  | str s' =>
    obtain ⟨-, -, h⟩ := bind_eq_ok.mp h
    obtain ⟨-, -, h⟩ := bind_eq_ok.mp h
    rw [Except.ok.inj h]
  | _ => cases h

/-- An accepted policy id is returned as it is. -/
theorem policyId_eq_ok {raw : PyJson} {s : PyStr} (h : policyId raw = .ok s) : raw = .str s := by
  cases raw with
  | str s' =>
    simp only [policyId] at h
    split at h
    · rw [Except.ok.inj h]
    · cases h
  | _ => cases h

/-- An accepted row bound is returned as it is. -/
theorem maximumRows_eq_ok {raw : PyJson} {n : ℤ} (h : maximumRows raw = .ok n) :
    raw = .int n := by
  unfold maximumRows at h
  split at h
  · split at h
    · rw [Except.ok.inj h]
    · cases h
  · cases h

/-- An accepted operator is returned as it is. -/
theorem operator_eq_ok {raw : PyJson} {s : PyStr} (h : operator raw = .ok s) : raw = .str s := by
  unfold operator at h
  split at h
  · split at h
    · rw [Except.ok.inj h]
    · cases h
  · cases h
  · cases h
  · cases h

/-- A list whose items are each kept. -/
theorem mapM_eq_ok_of {f : PyJson → Except AuthoringFault PyStr}
    (hf : ∀ {x s}, f x = .ok s → x = .str s) {items : List PyJson} {out : List PyStr}
    (h : items.mapM f = .ok out) : items = out.map .str := by
  induction items generalizing out with
  | nil =>
    cases h
    rfl
  | cons x rest ih =>
    rw [List.mapM_cons] at h
    obtain ⟨s, hs, h⟩ := bind_eq_ok.mp h
    obtain ⟨out', hout', h⟩ := bind_eq_ok.mp h
    rw [← Except.ok.inj h, List.map_cons, hf hs, ih hout']

/-- Accepted names are returned as they are. -/
theorem documentNames_eq_ok {raw : PyJson} {names : Option (List PyStr)}
    (h : documentNames lib raw = .ok names) : raw = namesJson names := by
  cases raw with
  | null => rw [← Except.ok.inj h, namesJson]
  | arr items =>
    obtain ⟨-, -, h⟩ := bind_eq_ok.mp h
    obtain ⟨out, hout, h⟩ := bind_eq_ok.mp h
    obtain ⟨-, -, h⟩ := bind_eq_ok.mp h
    rw [← Except.ok.inj h, namesJson, mapM_eq_ok_of (fun hs => (trimmedText_eq_ok.mp hs).1) hout]
  | _ => cases h

/-! ## Instants -/

/-- The characters of a timestamp. -/
def isStampChar (c : Char) : Bool := c.isDigit || ['-', 'T', ':', '.', 'Z'].contains c

/-- Digits are characters of a timestamp. -/
theorem isStampChar_decimal {width n : ℕ} {c : Char} (h : c ∈ Lexicographic.decimal width n) :
    isStampChar c = true := by
  rw [isStampChar, Lexicographic.isDigit_of_mem_decimal h, Bool.true_or]

/-- The layout of a timestamp: 27 characters, none of them a blank or a control character. -/
theorem stamp_layout {utc : DateTime} (h : utc.representable = true) :
    utc.rfc3339.toList.length = 27 ∧ ∀ c ∈ utc.rfc3339.toList, isStampChar c = true := by
  have hbound : utc.micros < 3652059 * 86400000000 := of_decide_eq_true h
  obtain ⟨hyear, hmonth, hday⟩ := DateTime.printable_civil
    (show utc.micros / 1000000 / 86400 < 3652059 by omega)
  rw [DateTime.toList_rfc3339, DateTime.dateText, DateTime.clockText]
  constructor
  · have hyears := Lexicographic.length_decimal (by decide) hyear
    have hmonths := Lexicographic.length_decimal (by decide) hmonth
    have hdays := Lexicographic.length_decimal (by decide) hday
    have htwo : ∀ n < 100, (Lexicographic.decimal 2 n).length = 2 := fun n hn =>
      Lexicographic.length_decimal (by decide) hn
    have hsix : ∀ n < 1000000, (Lexicographic.decimal 6 n).length = 6 := fun n hn =>
      Lexicographic.length_decimal (by decide) hn
    simp only [List.length_append, List.length_singleton, hyears, hmonths, hdays]
    rw [htwo _ (by omega), htwo _ (by omega), htwo _ (by omega), hsix _ (by omega)]
  · simp only [List.forall_mem_append, List.forall_mem_singleton]
    refine ⟨fun _ => isStampChar_decimal, by decide, fun _ => isStampChar_decimal, by decide,
      fun _ => isStampChar_decimal, by decide, fun _ => isStampChar_decimal, by decide,
      fun _ => isStampChar_decimal, by decide, fun _ => isStampChar_decimal, by decide,
      fun _ => isStampChar_decimal, by decide⟩

/-- The characters of a timestamp are visible ASCII. -/
theorem stampChar_lt {c : Char} (h : isStampChar c = true) : 45 ≤ c.toNat ∧ c.toNat ≤ 90 := by
  rw [isStampChar, Bool.or_eq_true] at h
  rcases h with h | h
  · have hdigit : 48 ≤ c.toNat ∧ c.toNat ≤ 57 := Char.isDigit_iff_toNat.mp h
    omega
  · have hmem := List.contains_iff_mem.mp h
    simp only [List.mem_cons, List.not_mem_nil, or_false] at hmem
    rcases hmem with rfl | rfl | rfl | rfl | rfl <;> decide

/-- A timestamp ends in its only `Z`. -/
theorem stamp_split (utc : DateTime) :
    ∃ front, utc.rfc3339.toList = front ++ ['Z'] ∧ ∀ c ∈ front, c ≠ 'Z' := by
  have hdecimal : ∀ width n, ∀ c ∈ Lexicographic.decimal width n, c ≠ 'Z' := by
    intro width n c hc hz
    have hdigit := Lexicographic.isDigit_of_mem_decimal hc
    rw [hz] at hdigit
    cases hdigit
  have hmark : ∀ mark : Char, mark ≠ 'Z' → ∀ c ∈ [mark], c ≠ 'Z' := by
    intro mark hne c hc
    rw [List.mem_singleton.mp hc]
    exact hne
  refine ⟨(DateTime.secondsText "T" utc ++ "." ++ DateTime.padded 6 (utc.micros % 1000000)).toList,
    ?_, ?_⟩
  · rw [DateTime.rfc3339, String.toList_append]
    rfl
  · simp only [DateTime.secondsText, String.toList_append, DateTime.toList_padded,
      List.forall_mem_append]
    refine ⟨⟨⟨⟨⟨⟨⟨⟨⟨⟨⟨⟨hdecimal _ _, ?_⟩, hdecimal _ _⟩, ?_⟩, hdecimal _ _⟩, ?_⟩, hdecimal _ _⟩, ?_⟩,
      hdecimal _ _⟩, ?_⟩, hdecimal _ _⟩, ?_⟩, hdecimal _ _⟩ <;> exact hmark _ (by decide)

/-- The `Z` of a timestamp is replaced by its offset. -/
theorem utcOffset_stamp {utc : DateTime} {front : Text}
    (hsplit : utc.rfc3339.toList = front ++ ['Z']) (hfront : ∀ c ∈ front, c ≠ 'Z') :
    utcOffset (.ofString utc.rfc3339) = PyStr.ofText front ++ .ofString "+00:00" := by
  have hkeep : ∀ text : Text, (∀ c ∈ text, c ≠ 'Z') →
      utcOffset (PyStr.ofText text) = PyStr.ofText text := by
    intro text htext
    induction text with
    | nil => rfl
    | cons c rest ih =>
      rw [List.forall_mem_cons] at htext
      have hne : CodePoint.ofChar c ≠ CodePoint.ofChar 'Z' :=
        fun h => htext.1 (CodePoint.ofChar_injective h)
      show (if CodePoint.ofChar c = CodePoint.ofChar 'Z' then _ else _)
        ++ utcOffset (PyStr.ofText rest) = _
      rw [if_neg hne, ih htext.2]
      rfl
  rw [PyStr.ofString, hsplit, PyStr.ofText, List.map_append]
  show utcOffset (PyStr.ofText front ++ [CodePoint.ofChar 'Z']) = _
  rw [utcOffset, List.flatMap_append]
  show utcOffset (PyStr.ofText front) ++ _ = _
  rw [hkeep front hfront]
  rfl

/-- The instants of the calendar have different texts. -/
theorem stamp_injective {a b : DateTime} (ha : a.representable = true)
    (hb : b.representable = true)
    (h : utcOffset (.ofString a.rfc3339) = utcOffset (.ofString b.rfc3339)) : a = b := by
  obtain ⟨front, hsplit, hfront⟩ := stamp_split a
  obtain ⟨front', hsplit', hfront'⟩ := stamp_split b
  rw [utcOffset_stamp hsplit hfront, utcOffset_stamp hsplit' hfront'] at h
  have hsame : front = front' := PyStr.ofText_injective (List.append_cancel_right h)
  have htext : a.rfc3339 = b.rfc3339 := by
    apply String.toList_injective
    rw [hsplit, hsplit', hsame]
  have hle : a ≤ b := (DateTime.rfc3339_le_iff ha hb).mp (by rw [htext])
  have hge : b ≤ a := (DateTime.rfc3339_le_iff hb ha).mp (by rw [htext])
  exact congrArg DateTime.mk (Nat.le_antisymm hle hge)

/-- ASCII takes one byte for each character. -/
theorem utf8Length_ascii {text : Text} (h : ∀ c ∈ text, c.toNat < 128) :
    utf8Length text = text.length := by
  unfold utf8Length
  induction text with
  | nil => rfl
  | cons c rest ih =>
    rw [List.forall_mem_cons] at h
    have hsize : c.utf8Size = 1 := by
      rw [Char.utf8Size, if_pos]
      apply UInt32.le_iff_toNat_le.mpr
      show c.toNat ≤ 127
      omega
    rw [List.map_cons, List.sum_cons, hsize, ih h.2, List.length_cons, Nat.add_comm]

/-- Characters that are neither blanks nor control characters make a text `_text` accepts. -/
theorem trimmedText_plain (htexts : LawfulTexts lib) {text : String} {maximum : ℕ}
    (hne : text.toList ≠ []) (hplain : ∀ c ∈ text.toList, 33 ≤ c.toNat ∧ c.toNat < 127)
    (hlength : text.toList.length ≤ maximum) :
    trimmedText lib maximum (.str (.ofString text)) = .ok (.ofString text) := by
  have hascii : ∀ c ∈ text.toList, c.toNat < 128 := fun c hc => by
    have hrange := hplain c hc
    omega
  -- visible ASCII is no blank, so nothing is stripped
  have hspace : ∀ c ∈ text.toList, PyStr.isSpacePoint (.ofChar c) = false := by
    intro c hc
    have hrange := hplain c hc
    rw [PyStr.isSpacePoint, CodePoint.toChar?_ofChar, Option.any_some, isSpace]
    simp only [Bool.or_eq_false_iff, Bool.and_eq_false_iff, decide_eq_false_iff_not, beq_eq_false_iff_ne]
    omega
  have hmem : ∀ d, d.toNat < 33 → (PyStr.ofString text).hasChar d = false := by
    intro d hd
    rw [PyStr.hasChar, ← Bool.not_eq_true, List.contains_iff_mem]
    intro hin
    obtain ⟨c, hc, hsame⟩ := List.mem_map.mp hin
    have hrange := hplain c hc
    rw [CodePoint.ofChar_injective hsame] at hrange
    omega
  refine trimmedText_eq_ok.mpr ⟨rfl, ?_, ?_, ?_, ⟨text.toList, PyStr.encode?_ofText _, ?_⟩, ?_⟩
  · intro hnil
    exact hne (List.map_eq_nil_iff.mp hnil)
  · rw [PyStr.isStripped, Bool.and_eq_true, Bool.not_eq_true', Bool.not_eq_true']
    constructor
    · rw [PyStr.ofString, PyStr.ofText, List.head?_map, Option.any_map]
      cases hhead : text.toList.head? with
      | none => rfl
      | some c => exact hspace c (List.mem_of_mem_head? hhead)
    · rw [PyStr.ofString, PyStr.ofText, List.getLast?_map, Option.any_map]
      cases hlast : text.toList.getLast? with
      | none => rfl
      | some c => exact hspace c (List.mem_of_mem_getLast? hlast)
  · exact htexts.nfc_ascii _ hascii
  · rw [utf8Length_ascii hascii]
    exact hlength
  · rw [isPrintable, hmem _ (by decide), hmem _ (by decide), hmem _ (by decide)]
    rfl

/-- The instant in normal form is read as itself. -/
theorem timestamp_stable (htexts : LawfulTexts lib) {raw : PyJson} {s : PyStr}
    (h : timestamp lib raw = .ok s) : timestamp lib (.str s) = .ok s := by
  obtain ⟨raw', -, h⟩ := bind_eq_ok.mp h
  split at h
  · cases h
  · cases h
  · cases h
  · rename_i utc hutc
    rw [← Except.ok.inj h]
    have hutc := htexts.representable _ _ hutc
    obtain ⟨hlength, hchars⟩ := stamp_layout hutc
    have hne : utc.rfc3339.toList ≠ [] := by
      intro hnil
      rw [hnil] at hlength
      cases hlength
    have hplain : ∀ c ∈ utc.rfc3339.toList, 33 ≤ c.toNat ∧ c.toNat < 127 := by
      intro c hc
      have hrange := stampChar_lt (hchars c hc)
      omega
    refine bind_eq_ok.mpr ⟨_, trimmedText_plain htexts hne hplain (by omega), ?_⟩
    rw [htexts.reads utc hutc]
    rfl

/-- An accepted expectation is its own normal form. -/
theorem expectedModified_stable (htexts : LawfulTexts lib) {raw out : PyJson} {rows : ℤ}
    {names : Option (List PyStr)} (h : expectedModified lib raw rows names = .ok out) :
    expectedModified lib out rows names = .ok out := by
  unfold expectedModified at h
  split at h
  · rw [← Except.ok.inj h]
    rfl
  · obtain ⟨s, hs, h⟩ := bind_eq_ok.mp h
    obtain ⟨u, hrows, h⟩ := bind_eq_ok.mp h
    rw [← Except.ok.inj h]
    have hstable := timestamp_stable htexts hs
    exact bind_eq_ok.mpr ⟨s, hstable, bind_eq_ok.mpr ⟨u, hrows, rfl⟩⟩

/-! ## Filters and changes -/

/-- An accepted filter is made of an accepted field, operator and operand. -/
theorem filter_eq_ok {raw out : PyJson} (h : filter lib raw = .ok out) :
    ∃ name operator' operand, out = filterFields name operator' operand
      ∧ fieldName lib (.str name) = .ok name ∧ operator (.str operator') = .ok operator'
      ∧ checkOperand operator' operand = .ok () ∧ ∃ rawOperand, value lib rawOperand = .ok operand := by
  unfold filter at h
  split at h
  · rename_i item
    obtain ⟨-, -, h⟩ := bind_eq_ok.mp h
    obtain ⟨operator', hoperator, h⟩ := bind_eq_ok.mp h
    obtain ⟨operand, hoperand, h⟩ := bind_eq_ok.mp h
    obtain ⟨u, hcheck, h⟩ := bind_eq_ok.mp h
    obtain ⟨name, hname, h⟩ := bind_eq_ok.mp h
    refine ⟨name, operator', operand, (Except.ok.inj h).symm, ?_, ?_, hcheck, _, hoperand⟩
    · rw [fieldName_eq_ok hname] at hname
      exact hname
    · rw [operator_eq_ok hoperator] at hoperator
      exact hoperator
  · cases h

/-- Three accepted parts make a filter that is accepted as it is. -/
theorem filter_fields {name operator' : PyStr} {operand : PyJson}
    (hname : fieldName lib (.str name) = .ok name) (hoperator : operator (.str operator') = .ok operator')
    (hcheck : checkOperand operator' operand = .ok ()) (hoperand : value lib operand = .ok operand) :
    filter lib (filterFields name operator' operand) = .ok (filterFields name operator' operand) := by
  have hkeys : sameKeys [(PyStr.ofString "field", PyJson.str name),
      (.ofString "operator", .str operator'), (.ofString "value", operand)] filterNames = true := by
    apply sameKeys_of_perm
    rfl
  show (require _ >>= _) = _
  refine bind_eq_ok.mpr ⟨(), require_eq_ok.mpr hkeys, bind_eq_ok.mpr ⟨operator', ?_, ?_⟩⟩
  · rw [field_cons, field_cons]
    exact hoperator
  · refine bind_eq_ok.mpr ⟨operand, ?_, bind_eq_ok.mpr ⟨(), hcheck, bind_eq_ok.mpr ⟨name, ?_, rfl⟩⟩⟩
    · rw [field_cons, field_cons, field_cons]
      exact hoperand
    · rw [field_cons]
      exact hname

/-- An accepted filter is its own normal form. -/
theorem filter_stable (htexts : LawfulTexts lib) {raw out : PyJson}
    (h : filter lib raw = .ok out) : filter lib out = .ok out := by
  obtain ⟨name, operator', operand, rfl, hname, hoperator, hcheck, rawOperand, hoperand⟩ :=
    filter_eq_ok h
  exact filter_fields hname hoperator hcheck (value_stable htexts hoperand)

/-- A list is its own normal form when each of its items is. -/
theorem mapM_stable {f : PyJson → Except AuthoringFault PyJson}
    (hf : ∀ {x out}, f x = .ok out → f out = .ok out) {items out : List PyJson}
    (h : items.mapM f = .ok out) : out.mapM f = .ok out ∧ out.length = items.length := by
  induction items generalizing out with
  | nil =>
    cases h
    exact ⟨rfl, rfl⟩
  | cons x rest ih =>
    rw [List.mapM_cons] at h
    obtain ⟨y, hy, h⟩ := bind_eq_ok.mp h
    obtain ⟨ys, hys, h⟩ := bind_eq_ok.mp h
    obtain ⟨hstable, hlength⟩ := ih hys
    rw [← Except.ok.inj h]
    constructor
    · rw [List.mapM_cons, hf hy, hstable]
      rfl
    · rw [List.length_cons, List.length_cons, hlength]

/-- The accepted filters are their own normal form, and select documents as before. -/
theorem filters_stable (htexts : LawfulTexts lib) {raw out : PyJson}
    (h : filters lib raw = .ok out) :
    filters lib out = .ok out ∧ isSelection out = isSelection raw := by
  cases raw with
  | null =>
    rw [← Except.ok.inj h]
    exact ⟨rfl, rfl⟩
  | arr items =>
    obtain ⟨u, hshape, h⟩ := bind_eq_ok.mp h
    obtain ⟨ys, hys, h⟩ := bind_eq_ok.mp h
    rw [← Except.ok.inj h]
    obtain ⟨hstable, hlength⟩ := mapM_stable (filter_stable htexts) hys
    have hempty : ys.isEmpty = items.isEmpty := by
      rw [Bool.eq_iff_iff, List.isEmpty_iff_length_eq_zero, List.isEmpty_iff_length_eq_zero, hlength]
    constructor
    · rw [filters, hempty, hlength, hshape, hstable]
      rfl
    · rw [isSelection, isSelection, hempty]
  | _ => cases h

/-- Fields that `changedFields` leaves as they are. -/
structure Settled (lib : TextLibrary) (fields : Fields) : Prop where
  names : ∀ f ∈ fields, fieldName lib (.str f.1) = .ok f.1
  values : ∀ f ∈ fields, value lib f.2 = .ok f.2
  nodup : (fields.map Prod.fst).Nodup

/-- Settled fields are settled in any order. -/
theorem Settled.perm {fields fields' : Fields} (h : Settled lib fields)
    (hperm : fields'.Perm fields) : Settled lib fields' where
  names f hf := h.names f (hperm.mem_iff.mp hf)
  values f hf := h.values f (hperm.mem_iff.mp hf)
  nodup := ((hperm.map Prod.fst).nodup_iff).mpr h.nodup

/-- The changes that are written are settled, and no more than the given ones. -/
theorem changedFields_eq_ok (htexts : LawfulTexts lib) {items done out : Fields}
    (h : changedFields lib done items = .ok out) (hdone : Settled lib done) :
    Settled lib out ∧ out.length ≤ done.length + items.length ∧ (items ≠ [] → out ≠ [])
      ∧ (done ≠ [] → out ≠ []) := by
  induction items generalizing done with
  | nil =>
    rw [← Except.ok.inj h]
    exact ⟨hdone, Nat.le_refl _, fun hne => absurd rfl hne, id⟩
  | cons f rest ih =>
    obtain ⟨key, hkey, h⟩ := bind_eq_ok.mp h
    obtain ⟨x, hx, h⟩ := bind_eq_ok.mp h
    have hname := hkey
    rw [fieldName_eq_ok hkey] at hname
    have hset : Settled lib (setItem done key x) := by
      refine ⟨fun g hg => ?_, fun g hg => ?_, nodup_setItem key x hdone.nodup⟩
      · rcases mem_setItem hg with rfl | hg
        · exact hname
        · exact hdone.names g hg
      · rcases mem_setItem hg with rfl | hg
        · exact value_stable htexts hx
        · exact hdone.values g hg
    obtain ⟨hout, hlength, -, hne⟩ := ih h hset
    have hsize := length_setItem done key x
    have hpos : setItem done key x ≠ [] := List.ne_nil_of_length_pos hsize.1
    refine ⟨hout, ?_, fun _ => hne hpos, fun _ => hne hpos⟩
    rw [List.length_cons]
    omega

/-- Settled fields are kept, one after the other. -/
theorem changedFields_settled {done fields : Fields} (h : Settled lib (done ++ fields)) :
    changedFields lib done fields = .ok (done ++ fields) := by
  induction fields generalizing done with
  | nil => rw [changedFields, List.append_nil]
  | cons f rest ih =>
    obtain ⟨key, x⟩ := f
    have hmem : (key, x) ∈ done ++ (key, x) :: rest := by simp
    have hfresh : key ∉ done.map Prod.fst := by
      have hnodup := h.nodup
      rw [List.map_append, List.nodup_append'] at hnodup
      intro hdone
      exact hnodup.2.2 hdone List.mem_cons_self
    refine bind_eq_ok.mpr ⟨key, h.names _ hmem, bind_eq_ok.mpr ⟨x, h.values _ hmem, ?_⟩⟩
    rw [setItem_of_notMem hfresh, ih (by rwa [List.append_assoc, List.singleton_append]),
      List.append_assoc, List.singleton_append]

/-- Accepted changes are settled, not empty and at most 32. -/
theorem changes_eq_ok (htexts : LawfulTexts lib) {raw : PyJson} {out : Fields}
    (h : changes lib raw = .ok out) : Settled lib out ∧ out ≠ [] ∧ out.length ≤ 32 := by
  unfold changes at h
  split at h
  · rename_i items
    obtain ⟨u, hshape, h⟩ := bind_eq_ok.mp h
    rw [require_eq_ok, Bool.and_eq_true, Bool.not_eq_true', List.isEmpty_eq_false_iff,
      decide_eq_true_eq] at hshape
    have hempty : Settled lib [] := ⟨nofun, nofun, List.nodup_nil⟩
    obtain ⟨hsettled, hlength, hne, -⟩ := changedFields_eq_ok htexts h hempty
    rw [List.length_nil] at hlength
    exact ⟨hsettled, hne hshape.1, by omega⟩
  · cases h

/-- Settled changes are accepted as they are. -/
theorem changes_settled {fields : Fields} (h : Settled lib fields) (hne : fields ≠ [])
    (hlength : fields.length ≤ 32) : changes lib (.obj fields) = .ok fields := by
  have hshape : (!fields.isEmpty && decide (fields.length ≤ 32)) = true := by
    rw [Bool.and_eq_true, Bool.not_eq_true', List.isEmpty_eq_false_iff, decide_eq_true_eq]
    exact ⟨hne, hlength⟩
  exact bind_eq_ok.mpr ⟨(), require_eq_ok.mpr hshape, changedFields_settled h⟩

/-- Accepted changes are their own normal form. -/
theorem changes_stable (htexts : LawfulTexts lib) {raw : PyJson} {out : Fields}
    (h : changes lib raw = .ok out) : changes lib (.obj out) = .ok out := by
  obtain ⟨hsettled, hne, hlength⟩ := changes_eq_ok htexts h
  exact changes_settled hsettled hne hlength

/-- The changes read back, with their keys in order. -/
theorem changes_sorted (htexts : LawfulTexts lib) {raw : PyJson} {fields : List (String × Json)}
    (h : changes lib raw = .ok (ofFields fields)) :
    changes lib (.obj (ofFields (sortByKey (Json.sortedFields fields))))
      = .ok (ofFields (sortByKey (Json.sortedFields fields))) := by
  obtain ⟨hsettled, hne, hlength⟩ := changes_eq_ok htexts h
  have hnames := hsettled.names
  have hvalues := hsettled.values
  rw [ofFields_eq_map, List.forall_mem_map] at hnames hvalues
  refine changes_settled ⟨?_, ?_, ?_⟩ ?_ ?_
  · rw [forall_sortedFields]
    exact hnames
  · rw [forall_sortedFields]
    intro f hf
    exact value_sorted (hvalues f hf)
  · rw [(keys_sortedFields fields).nodup_iff]
    exact hsettled.nodup
  · apply List.ne_nil_of_length_pos
    rw [length_sortedFields]
    exact List.length_pos_iff.mpr hne
  · rw [length_sortedFields]
    exact hlength

end DataUpdateAuthoring

end FrappeController
