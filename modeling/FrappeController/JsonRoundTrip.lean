import FrappeController.JsonReaderTheorems
import FrappeController.Inventory
import Mathlib.Data.List.TakeWhile

/-!
# What `json.dumps` writes, `json.loads` reads

The text of a document is read back as that document, with any blanks between its parts, with
`ensure_ascii` or without, and whatever follows the text. `Readable` says what the interpreter has
to allow: the depth of the document, the digits of its integers, and its floats.
-/

namespace FrappeController

namespace Reader

/-! ## Escapes -/

/-- A hexadecimal digit is read back. -/
theorem hexDigit?_digitChar : ∀ n < 16, hexDigit? (Nat.digitChar n) = some n := by decide

/-- Two bytes in hexadecimal are read back as the unit they make up. -/
theorem hex4?_hexByte {n : ℕ} (hn : n < 0x10000) (rest : Text) :
    hex4? (hexByte (n / 256) ++ hexByte (n % 256) ++ rest) = some (⟨n, hn⟩, rest) := by
  have hdigit : ∀ k < 16, hexDigit? (Nat.digitChar k) = some k := hexDigit?_digitChar
  show (do
    let a ← hexDigit? (Nat.digitChar (n / 256 / 16))
    let b ← hexDigit? (Nat.digitChar (n / 256 % 16))
    let c ← hexDigit? (Nat.digitChar (n % 256 / 16))
    let d ← hexDigit? (Nat.digitChar (n % 256 % 16))
    return (Fin.ofNat 0x10000 (4096 * a + 256 * b + 16 * c + d), rest)) = _
  rw [hdigit _ (by omega), hdigit _ (by omega), hdigit _ (by omega), hdigit _ (by omega)]
  show some (Fin.ofNat 0x10000 (4096 * (n / 256 / 16) + 256 * (n / 256 % 16)
    + 16 * (n % 256 / 16) + n % 256 % 16), rest) = _
  have hvalue : 4096 * (n / 256 / 16) + 256 * (n / 256 % 16) + 16 * (n % 256 / 16) + n % 256 % 16
      = n := by omega
  rw [hvalue]
  have hunit : Fin.ofNat 0x10000 n = ⟨n, hn⟩ := Fin.ext (Nat.mod_eq_of_lt hn)
  rw [hunit]

/-- The escape of a character that is one UTF-16 unit. -/
theorem unicodeEscape?_hexByte {n : ℕ} (hn : n < 0x10000) (hhigh : n < 0xD800 ∨ 0xDBFF < n)
    (rest : Text) :
    unicodeEscape? (hexByte (n / 256) ++ hexByte (n % 256) ++ rest)
      = some (unitPoint ⟨n, hn⟩, rest) := by
  have hunit : isHighSurrogate ⟨n, hn⟩ = false := by
    rw [isHighSurrogate, Bool.and_eq_false_iff, decide_eq_false_iff_not, decide_eq_false_iff_not]
    show ¬0xD800 ≤ n ∨ ¬n ≤ 0xDBFF
    omega
  unfold unicodeEscape?
  rw [hex4?_hexByte hn]
  show (if isHighSurrogate ⟨n, hn⟩ then _ else _) = _
  rw [hunit]
  rfl

/-- The escapes of a character that is two units. -/
theorem unicodeEscape?_pair {high low : ℕ} (hhigh : 0xD800 ≤ high ∧ high ≤ 0xDBFF)
    (hlow : 0xDC00 ≤ low ∧ low ≤ 0xDFFF) (rest : Text) :
    unicodeEscape? (hexByte (high / 256) ++ hexByte (high % 256)
        ++ ('\\' :: 'u' :: (hexByte (low / 256) ++ hexByte (low % 256) ++ rest)))
      = some (joinSurrogates ⟨high, by omega⟩ ⟨low, by omega⟩, rest) := by
  have hfirst : isHighSurrogate ⟨high, by omega⟩ = true := by
    rw [isHighSurrogate, Bool.and_eq_true, decide_eq_true_eq, decide_eq_true_eq]
    exact hhigh
  have hsecond : isLowSurrogate ⟨low, by omega⟩ = true := by
    rw [isLowSurrogate, Bool.and_eq_true, decide_eq_true_eq, decide_eq_true_eq]
    exact hlow
  have hunit := hex4?_hexByte (show high < 65536 by omega)
    ('\\' :: 'u' :: (hexByte (low / 256) ++ hexByte (low % 256) ++ rest))
  exact unicodeEscape?_of_surrogates hunit (hex4?_hexByte (by omega) rest) hfirst hsecond

/-- A character that needs no escape stands for itself. -/
theorem scanChar_plain {c : Char} (hescape : c ≠ '\\') (hcontrol : 32 ≤ c.toNat) (rest : Text) :
    scanChar (c :: rest) = some (.ofChar c, rest) := by
  show (if c = '\\' then _ else if c.toNat < 32 then _ else _) = _
  rw [if_neg hescape, if_neg (by omega)]

/-- What `escapeChar` writes, the reader takes as one character. -/
theorem scanChar_escapeChar (c : Char) (rest : Text) :
    scanChar (escapeChar c ++ rest) = some (.ofChar c, rest) := by
  unfold escapeChar
  -- the escapes are tried in the order of the code
  by_cases hquote : c = '"'
  · rw [if_pos hquote, hquote]
    rfl
  rw [if_neg hquote]
  by_cases hbackslash : c = '\\'
  · rw [if_pos hbackslash, hbackslash]
    rfl
  rw [if_neg hbackslash]
  by_cases hnewline : c = '\n'
  · rw [if_pos hnewline, hnewline]
    rfl
  rw [if_neg hnewline]
  by_cases hreturn : c = '\r'
  · rw [if_pos hreturn, hreturn]
    rfl
  rw [if_neg hreturn]
  by_cases htab : c = '\t'
  · rw [if_pos htab, htab]
    rfl
  rw [if_neg htab]
  by_cases hbackspace : c.toNat = 8
  · rw [if_pos hbackspace, ← c.ofNat_toNat, hbackspace]
    rfl
  rw [if_neg hbackspace]
  by_cases hfeed : c.toNat = 12
  · rw [if_pos hfeed, ← c.ofNat_toNat, hfeed]
    rfl
  rw [if_neg hfeed]
  -- any other control character is one unit of two zero bytes and its own two digits
  by_cases hcontrol : c.toNat < 32
  · rw [if_pos hcontrol]
    have hread := unicodeEscape?_hexByte (n := c.toNat) (by omega) (by omega) rest
    have hfirst : c.toNat / 256 = 0 := by omega
    have hsecond : c.toNat % 256 = c.toNat := by omega
    rw [hfirst, hsecond] at hread
    exact hread
  · rw [if_neg hcontrol]
    exact scanChar_plain hbackslash (by omega) rest

/-! ## Encodings -/

/-- How the characters of a text are written: an encoding that the reader undoes. -/
structure Encodes (e : Char → Text) : Prop where
  plain : ∀ c : Char, c.toNat < 127 → e c = [c]
  scan : ∀ c rest, scanChar ((escapeChar c).flatMap e ++ rest) = some (.ofChar c, rest)

/-- `ensure_ascii=False` -/
theorem encodes_self : Encodes fun c => [c] where
  plain := fun _ _ => rfl
  scan := by
    intro c rest
    rw [List.flatMap_singleton']
    exact scanChar_escapeChar c rest

/-- Above ASCII nothing is escaped by `escapeChar`. -/
theorem escapeChar_of_le {c : Char} (h : 127 ≤ c.toNat) : escapeChar c = [c] := by
  have hne : ∀ d : Char, d.toNat < 127 → c ≠ d := by
    intro d hd heq
    rw [heq] at h
    omega
  unfold escapeChar
  rw [if_neg (hne _ (by decide)), if_neg (hne _ (by decide)), if_neg (hne _ (by decide)),
    if_neg (hne _ (by decide)), if_neg (hne _ (by decide)), if_neg (by omega), if_neg (by omega),
    if_neg (by omega)]

/-- What evaluation finds of every character of a text. -/
theorem forall_of_all {p : Char → Bool} {text : Text} (h : text.all p = true) :
    ∀ c ∈ text, p c = true := List.all_eq_true.mp h

/-- A text that evaluates as ASCII is ASCII. -/
theorem ascii_of_all {text : Text} (h : (text.all fun c => decide (c.toNat < 127)) = true) :
    ∀ c ∈ text, c.toNat < 127 := fun c hc => of_decide_eq_true (forall_of_all h c hc)

/-- `escapeChar` writes ASCII for ASCII. -/
theorem escapeChar_ascii {c : Char} (h : c.toNat < 127) : ∀ d ∈ escapeChar c, d.toNat < 127 := by
  have hhex : ∀ n < 32, ((hexByte n).all fun d => decide (d.toNat < 127)) = true := by decide
  unfold escapeChar
  split_ifs with hquote hbackslash hnewline hreturn htab hbackspace hfeed hcontrol
  · exact ascii_of_all (by decide)
  · exact ascii_of_all (by decide)
  · exact ascii_of_all (by decide)
  · exact ascii_of_all (by decide)
  · exact ascii_of_all (by decide)
  · exact ascii_of_all (by decide)
  · exact ascii_of_all (by decide)
  · intro d hd
    simp only [List.mem_cons] at hd
    rcases hd with rfl | rfl | rfl | rfl | hd
    · decide
    · decide
    · decide
    · decide
    · exact ascii_of_all (hhex _ hcontrol) d hd
  · intro d hd
    rw [List.mem_singleton.mp hd]
    exact h

/-- ASCII is written as it is. -/
theorem flatMap_plain {e : Char → Text} (hplain : ∀ c : Char, c.toNat < 127 → e c = [c])
    {text : Text} (h : ∀ c ∈ text, c.toNat < 127) : text.flatMap e = text := by
  induction text with
  | nil => rfl
  | cons c rest ih =>
    rw [List.flatMap_cons, hplain c (h c List.mem_cons_self),
      ih fun d hd => h d (List.mem_cons_of_mem c hd)]
    rfl

/-- `ensure_ascii=True` -/
theorem encodes_ascii : Encodes Inventory.asciiEscape where
  plain := fun c h => if_pos h
  scan := by
    intro c rest
    have hplain : ∀ d : Char, d.toNat < 127 → Inventory.asciiEscape d = [d] := fun d h => if_pos h
    by_cases hascii : c.toNat < 127
    · rw [flatMap_plain hplain (escapeChar_ascii hascii)]
      exact scanChar_escapeChar c rest
    · rw [escapeChar_of_le (by omega), List.flatMap_singleton]
      unfold Inventory.asciiEscape
      have hvalid : c.toNat < 0xD800 ∨ 0xDFFF < c.toNat ∧ c.toNat < 0x110000 := c.valid
      by_cases hshort : c.toNat < 0x10000
      · rw [if_neg hascii, if_pos hshort]
        show unicodeEscape? (hexByte (c.toNat / 256) ++ hexByte (c.toNat % 256) ++ rest) = _
        rw [unicodeEscape?_hexByte hshort (by omega)]
        rfl
      · rw [if_neg hascii, if_neg hshort]
        have hhigh : 0xD800 ≤ 0xD800 + (c.toNat - 0x10000) / 0x400
            ∧ 0xD800 + (c.toNat - 0x10000) / 0x400 ≤ 0xDBFF := by omega
        have hlow : 0xDC00 ≤ 0xDC00 + (c.toNat - 0x10000) % 0x400
            ∧ 0xDC00 + (c.toNat - 0x10000) % 0x400 ≤ 0xDFFF := by omega
        have hread := unicodeEscape?_pair hhigh hlow rest
        have hjoin : joinSurrogates ⟨0xD800 + (c.toNat - 0x10000) / 0x400, by omega⟩
            ⟨0xDC00 + (c.toNat - 0x10000) % 0x400, by omega⟩ = CodePoint.ofChar c := by
          apply Fin.ext
          show (0x10000 + (0xD800 + (c.toNat - 0x10000) / 0x400 - 0xD800) * 0x400
            + (0xDC00 + (c.toNat - 0x10000) % 0x400 - 0xDC00)) % 0x110000 = c.toNat
          omega
        rw [hjoin] at hread
        rw [← hread, List.append_assoc]
        rfl

/-! ## Strings -/

section Encoding

variable {e : Char → Text} (he : Encodes e)

include he

/-- The text of a character does not look like the end of its string. -/
theorem head_encoded (c : Char) (rest : Text) :
    ((escapeChar c).flatMap e ++ rest).head? ≠ some '"' := by
  intro hhead
  have hscan := he.scan c rest
  obtain ⟨tail, htail⟩ := List.head?_eq_some_iff.mp hhead
  have hquote : c = '"' := by
    rw [htail, scanChar_plain (by decide) (by decide)] at hscan
    exact (CodePoint.ofChar_injective (Prod.mk.inj (Option.some.inj hscan)).1).symm
  rw [hquote, flatMap_plain he.plain (escapeChar_ascii (by decide))] at hhead
  cases hhead

/-- The characters of a string are read back one by one, up to its closing quote. -/
theorem scanChars_encoded (chars rest : Text) {fuel : ℕ}
    (hfuel : ((chars.flatMap escapeChar).flatMap e ++ '"' :: rest).length < fuel) :
    scanChars fuel ((chars.flatMap escapeChar).flatMap e ++ '"' :: rest)
      = some (PyStr.ofText chars, rest) := by
  induction chars generalizing fuel with
  | nil =>
    obtain ⟨fuel, rfl⟩ : ∃ k, fuel = k + 1 := ⟨fuel - 1, by omega⟩
    rfl
  | cons c chars ih =>
    obtain ⟨fuel, rfl⟩ : ∃ k, fuel = k + 1 := ⟨fuel - 1, by omega⟩
    rw [List.flatMap_cons, List.flatMap_append, List.append_assoc] at hfuel ⊢
    have hscan := he.scan c ((chars.flatMap escapeChar).flatMap e ++ '"' :: rest)
    have hshorter := length_scanChar hscan
    rw [scanChars, if_neg (head_encoded he c _), hscan]
    show (scanChars fuel ((chars.flatMap escapeChar).flatMap e ++ '"' :: rest)).bind _ = _
    rw [ih (by omega)]
    rfl

/-- A quoted string is read back, whatever follows it. -/
theorem scanString_quote (s : String) (rest : Text) :
    scanString ((s.toList.flatMap escapeChar).flatMap e ++ '"' :: rest)
      = .ok (PyStr.ofString s, rest) := by
  unfold scanString
  rw [scanChars_encoded he s.toList rest (by omega)]
  rfl

end Encoding

/-! ## Numbers -/

/-- The digits of a text do not run into what delimits it. -/
theorem takeWhile_delimited {r : Text} (hr : Delimited r) (text : Text) :
    digits (text ++ r) = digits text ∧ afterDigits (text ++ r) = afterDigits text ++ r := by
  have hnone : digits r = [] ∧ afterDigits r = r := by
    cases r with
    | nil => exact ⟨rfl, rfl⟩
    | cons c rest =>
      have hchar : c.isDigit = false := by
        have htoken : isTokenChar c = false := hr c rfl
        simp only [isTokenChar, Char.isAlphanum, Bool.or_eq_false_iff] at htoken
        exact htoken.1.1.1.2
      rw [digits, afterDigits, List.takeWhile_cons, List.dropWhile_cons, hchar]
      exact ⟨rfl, rfl⟩
  induction text with
  | nil => exact hnone
  | cons c rest ih =>
    unfold digits afterDigits at ih ⊢
    rw [List.cons_append, List.takeWhile_cons, List.dropWhile_cons, List.takeWhile_cons,
      List.dropWhile_cons]
    by_cases hdigit : c.isDigit = true
    · rw [if_pos hdigit, if_pos hdigit, if_pos hdigit, if_pos hdigit, ih.1, ih.2]
      exact ⟨rfl, rfl⟩
    · rw [if_neg hdigit, if_neg hdigit, if_neg hdigit, if_neg hdigit]
      exact ⟨rfl, rfl⟩

/-- The digits are those of the number alone. -/
theorem digits_append {r : Text} (hr : Delimited r) (text : Text) :
    digits (text ++ r) = digits text := (takeWhile_delimited hr text).1

/-- What follows the digits is followed by the rest. -/
theorem afterDigits_append {r : Text} (hr : Delimited r) (text : Text) :
    afterDigits (text ++ r) = afterDigits text ++ r := (takeWhile_delimited hr text).2

/-- What a delimited text does not start with. -/
theorem ne_of_delimited {c d : Char} {rest : Text} (hr : Delimited (c :: rest))
    (hd : isTokenChar d = true) : c ≠ d := by
  intro heq
  have htoken : isTokenChar c = false := hr c rfl
  rw [heq, hd] at htoken
  cases htoken

/-- A natural number is scanned alike before any delimiter. -/
theorem natural?_append {r : Text} (hr : Delimited r) {text ds rest : Text}
    (h : natural? text = some (ds, rest)) : natural? (text ++ r) = some (ds, rest ++ r) := by
  cases text with
  | nil => cases h
  | cons c tail =>
    by_cases hzero : c = '0'
    · subst hzero
      cases h
      rfl
    · have hsplit : ∀ t : Text, natural? (c :: t) = if digits (c :: t) = [] then none
          else some (digits (c :: t), afterDigits (c :: t)) := by
        intro t
        unfold natural?
        split
        · rename_i heq
          exact absurd (List.cons.inj heq).1 hzero
        · rfl
      rw [hsplit] at h
      rw [List.cons_append, hsplit, ← List.cons_append, digits_append hr, afterDigits_append hr]
      split at h
      · cases h
      · rename_i hdigits
        cases h
        rw [if_neg hdigits]

/-- An integer is scanned alike before any delimiter. -/
theorem integer?_append {r : Text} (hr : Delimited r) {text ds rest : Text}
    (h : integer? text = some (ds, rest)) : integer? (text ++ r) = some (ds, rest ++ r) := by
  unfold integer? at h
  split at h
  · rename_i tail
    obtain ⟨⟨ds', rest'⟩, hnatural, heq⟩ := Option.map_eq_some_iff.mp h
    cases heq
    show (natural? (tail ++ r)).map _ = _
    rw [natural?_append hr hnatural]
    rfl
  · rename_i hsign
    have hsame : integer? (text ++ r) = natural? (text ++ r) := by
      unfold integer?
      split
      · rename_i tail heq
        cases text with
        | nil => cases h
        | cons c rest =>
          have hhead : c = '-' := (List.cons.inj heq).1
          exact absurd (by rw [hhead]) (hsign rest)
      · rfl
    rw [hsame]
    exact natural?_append hr h

/-- A point without digits behind it is no fraction. -/
theorem fraction_point (rest : Text) : fraction ('.' :: rest) = if digits rest = []
    then ([], '.' :: rest) else ('.' :: digits rest, afterDigits rest) := rfl

/-- A fraction is scanned alike before any delimiter. -/
theorem fraction_append {r : Text} (hr : Delimited r) (text : Text) :
    fraction (text ++ r) = ((fraction text).1, (fraction text).2 ++ r) := by
  cases text with
  | nil =>
    cases r with
    | nil => rfl
    | cons c rest =>
      have hpoint : c ≠ '.' := ne_of_delimited hr (by decide)
      show fraction (c :: rest) = ([], c :: rest)
      unfold fraction
      split
      · rename_i heq
        exact absurd (List.cons.inj heq).1 hpoint
      · rfl
  | cons c tail =>
    by_cases hpoint : c = '.'
    · subst hpoint
      rw [List.cons_append, fraction_point, fraction_point, digits_append hr,
        afterDigits_append hr]
      split
      · rfl
      · rfl
    · have hnone : ∀ t : Text, fraction (c :: t) = ([], c :: t) := by
        intro t
        unfold fraction
        split
        · rename_i heq
          exact absurd (List.cons.inj heq).1 hpoint
        · rfl
      rw [List.cons_append, hnone, hnone]
      rfl

/-- A sign is scanned alike before any delimiter. -/
theorem sign_append {r : Text} (hr : Delimited r) (text : Text) :
    sign (text ++ r) = ((sign text).1, (sign text).2 ++ r) := by
  have hnone : ∀ c : Char, c ≠ '+' → c ≠ '-' → ∀ t : Text, sign (c :: t) = ([], c :: t) := by
    intro c hplus hminus t
    unfold sign
    split
    · rename_i heq
      exact absurd (List.cons.inj heq).1 hplus
    · rename_i heq
      exact absurd (List.cons.inj heq).1 hminus
    · rfl
  cases text with
  | nil =>
    cases r with
    | nil => rfl
    | cons c rest =>
      exact hnone c (ne_of_delimited hr (by decide)) (ne_of_delimited hr (by decide)) rest
  | cons c tail =>
    by_cases hplus : c = '+'
    · subst hplus
      rfl
    · by_cases hminus : c = '-'
      · subst hminus
        rfl
      · rw [List.cons_append, hnone c hplus hminus, hnone c hplus hminus]
        rfl

/-- An `e` without digits behind it is no exponent. -/
theorem exponent_cons (c : Char) (rest : Text) :
    exponent (c :: rest) = if (c = 'e' ∨ c = 'E') ∧ digits (sign rest).2 ≠ []
      then (c :: (sign rest).1 ++ digits (sign rest).2, afterDigits (sign rest).2)
      else ([], c :: rest) := rfl

/-- An exponent is scanned alike before any delimiter. -/
theorem exponent_append {r : Text} (hr : Delimited r) (text : Text) :
    exponent (text ++ r) = ((exponent text).1, (exponent text).2 ++ r) := by
  cases text with
  | nil =>
    cases r with
    | nil => rfl
    | cons c rest =>
      have hlower : c ≠ 'e' := ne_of_delimited hr (by decide)
      have hupper : c ≠ 'E' := ne_of_delimited hr (by decide)
      show exponent (c :: rest) = ([], c :: rest)
      rw [exponent_cons, if_neg fun h => h.1.elim hlower hupper]
  | cons c tail =>
    rw [List.cons_append, exponent_cons, exponent_cons, sign_append hr]
    dsimp only
    rw [digits_append hr, afterDigits_append hr]
    split
    · rfl
    · rfl

/-- A text that is one number, with a fraction or an exponent. -/
def isFloatLiteral (text : Text) : Bool :=
  match integer? text with
  | none => false
  | some (_, rest) =>
    ((fraction rest).1 ++ (exponent (fraction rest).2).1).isEmpty == false
      && (exponent (fraction rest).2).2.isEmpty

/-- The fraction and what follows it make up the text. -/
theorem fraction_self (text : Text) : (fraction text).1 ++ (fraction text).2 = text := by
  unfold fraction
  split
  · split
    · rfl
    · rename_i rest _
      show '.' :: (digits rest ++ afterDigits rest) = _
      rw [digits, afterDigits, List.takeWhile_append_dropWhile]
  · rfl

/-- The sign and what follows it make up the text. -/
theorem sign_self (text : Text) : (sign text).1 ++ (sign text).2 = text := by
  unfold sign
  split <;> rfl

/-- The exponent and what follows it make up the text. -/
theorem exponent_self (text : Text) : (exponent text).1 ++ (exponent text).2 = text := by
  cases text with
  | nil => rfl
  | cons c rest =>
    unfold exponent
    dsimp only
    split
    · have hsign := sign_self rest
      show c :: ((sign rest).1 ++ digits (sign rest).2 ++ afterDigits (sign rest).2) = _
      rw [List.append_assoc, digits, afterDigits, List.takeWhile_append_dropWhile, hsign]
    · rfl

/-- A scanned number and what follows it make up the text, and it starts with a digit. -/
theorem natural?_self {text ds rest : Text} (h : natural? text = some (ds, rest)) :
    ds ++ rest = text ∧ ∃ c ∈ ds.head?, c.isDigit = true := by
  unfold natural? at h
  split at h
  · cases h
    exact ⟨rfl, '0', rfl, rfl⟩
  · split at h
    · cases h
    · rename_i hdigits
      cases h
      obtain ⟨c, tail, hcons⟩ := List.exists_cons_of_ne_nil hdigits
      have hdigit : (digits text).all Char.isDigit = true := List.all_takeWhile
      rw [hcons, List.all_cons, Bool.and_eq_true] at hdigit
      refine ⟨List.takeWhile_append_dropWhile, c, ?_, hdigit.1⟩
      rw [hcons]
      rfl

/-- A scanned integer and what follows it make up the text, after a sign or none. -/
theorem integer?_self {text whole rest : Text} (h : integer? text = some (whole, rest)) :
    whole ++ rest = text ∧ ∃ ds, (whole = ds ∨ whole = '-' :: ds)
      ∧ ∃ c ∈ ds.head?, c.isDigit = true := by
  unfold integer? at h
  split at h
  · obtain ⟨⟨ds, rest'⟩, hnatural, heq⟩ := Option.map_eq_some_iff.mp h
    cases heq
    obtain ⟨hself, hdigit⟩ := natural?_self hnatural
    refine ⟨?_, ds, .inr rfl, hdigit⟩
    rw [List.cons_append, hself]
  · obtain ⟨hself, hdigit⟩ := natural?_self h
    exact ⟨hself, whole, .inl rfl, hdigit⟩

/-- A positive number is written without leading zeros. -/
theorem head_toDigits {k : ℕ} (hk : 0 < k) : ∀ c ∈ (Nat.toDigits 10 k).head?, c ≠ '0' := by
  induction k using Nat.strongRecOn with
  | _ k ih =>
    by_cases hsmall : k < 10
    · rw [Nat.toDigits_of_lt_base hsmall]
      intro c hc
      cases hc
      intro hzero
      rw [Nat.digitChar_eq_zero] at hzero
      omega
    · rw [Nat.toDigits_of_base_le (by omega) (by omega)]
      have hhead := ih (k / 10) (by omega) (by omega)
      obtain ⟨c, tail, hcons⟩ := List.exists_cons_of_ne_nil
        (Nat.toDigits_ne_nil (n := k / 10) (b := 10))
      rw [hcons] at hhead ⊢
      exact hhead

/-- The digits of a number are scanned as one number. -/
theorem natural?_toDigits (k : ℕ) :
    natural? (Nat.toDigits 10 k) = some (Nat.toDigits 10 k, []) := by
  by_cases hk : k = 0
  · subst hk
    rfl
  · have hhead := head_toDigits (Nat.pos_of_ne_zero hk)
    have hall : ∀ c ∈ Nat.toDigits 10 k, c.isDigit = true := fun c hc =>
      Nat.isDigit_of_mem_toDigits (by omega) (by omega) hc
    obtain ⟨c, tail, hcons⟩ := List.exists_cons_of_ne_nil (Nat.toDigits_ne_nil (n := k) (b := 10))
    rw [hcons] at hhead hall ⊢
    have hzero : c ≠ '0' := hhead c rfl
    have hdigits : digits (c :: tail) = c :: tail ∧ afterDigits (c :: tail) = [] := by
      constructor
      · exact List.takeWhile_eq_self_iff.mpr hall
      · exact List.dropWhile_eq_nil_iff.mpr hall
    unfold natural?
    split
    · rename_i heq
      exact absurd (List.cons.inj heq).1 hzero
    · rw [hdigits.1, hdigits.2, if_neg (List.cons_ne_nil c tail)]

/-- The text of an integer: a sign if it is negative, and the digits of its size. -/
theorem int_toList (n : ℤ) : (toString n).toList
    = if n < 0 then '-' :: Nat.toDigits 10 n.natAbs else Nat.toDigits 10 n.natAbs := by
  cases n with
  | ofNat k => exact Nat.toList_repr
  | negSucc k =>
    have htext : (toString (Int.negSucc k)).toList = '-' :: (Nat.repr (k + 1)).toList :=
      String.toList_append
    rw [htext, if_pos (Int.negSucc_lt_zero k), Nat.toList_repr]
    rfl

/-- Digits do not start with a sign. -/
theorem minus_notMem_toDigits (k : ℕ) : ∀ c ∈ (Nat.toDigits 10 k).head?, c ≠ '-' := by
  intro c hc heq
  have hdigit : c.isDigit = true :=
    Nat.isDigit_of_mem_toDigits (by omega) (by omega) (List.mem_of_mem_head? hc)
  rw [heq] at hdigit
  cases hdigit

/-- The text of an integer is scanned as one integer. -/
theorem integer?_toString (n : ℤ) :
    integer? (toString n).toList = some ((toString n).toList, []) := by
  rw [int_toList]
  split
  · show (natural? (Nat.toDigits 10 n.natAbs)).map _ = _
    rw [natural?_toDigits]
    rfl
  · have hminus := minus_notMem_toDigits n.natAbs
    have hread := natural?_toDigits n.natAbs
    obtain ⟨c, tail, hcons⟩ := List.exists_cons_of_ne_nil
      (Nat.toDigits_ne_nil (n := n.natAbs) (b := 10))
    rw [hcons] at hminus hread ⊢
    unfold integer?
    split
    · rename_i heq
      exact absurd (List.cons.inj heq).1 (hminus c rfl)
    · exact hread

/-- The text of an integer is read back as it. -/
theorem readInt_toString (n : ℤ) : readInt (toString n).toList = n := by
  rw [int_toList]
  split
  · rename_i hneg
    show -(Nat.ofDigitChars 10 (Nat.toDigits 10 n.natAbs) 0 : ℤ) = n
    rw [Nat.ofDigitChars_ten_toDigits]
    omega
  · rename_i hneg
    have hminus := minus_notMem_toDigits n.natAbs
    have hvalue : readInt (Nat.toDigits 10 n.natAbs)
        = (Nat.ofDigitChars 10 (Nat.toDigits 10 n.natAbs) 0 : ℤ) := by
      unfold readInt
      split
      · rename_i heq
        rw [heq] at hminus
        exact absurd rfl (hminus '-' rfl)
      · rfl
    rw [hvalue, Nat.ofDigitChars_ten_toDigits]
    omega

/-- How many digits an integer is written with. -/
def intDigitCount (n : ℤ) : ℕ := (Nat.toDigits 10 n.natAbs).length

/-- The sign of an integer is not counted as a digit. -/
theorem digits_toString (n : ℤ) :
    ((toString n).toList.filter Char.isDigit).length = intDigitCount n := by
  have hall : (Nat.toDigits 10 n.natAbs).filter Char.isDigit = Nat.toDigits 10 n.natAbs :=
    List.filter_eq_self.mpr fun c hc => Nat.isDigit_of_mem_toDigits (by omega) (by omega) hc
  rw [int_toList]
  split
  · show (List.filter Char.isDigit ('-' :: Nat.toDigits 10 n.natAbs)).length = _
    rw [List.filter_cons_of_neg (by decide), hall]
    rfl
  · rw [hall]
    rfl

variable {R : Runtime} {L : Reader}

/-- An integer within the digit limit is read back before any delimiter. -/
theorem scanNumber_int {n : ℤ} (hn : intDigitCount n ≤ L.intDigits) {r : Text}
    (hr : Delimited r) : L.scanNumber ((toString n).toList ++ r) = .ok (.int n, r) := by
  unfold scanNumber
  have hfraction : fraction r = ([], r) := fraction_append hr []
  have hexponent : exponent r = ([], r) := exponent_append hr []
  rw [integer?_append hr (integer?_toString n)]
  dsimp only [List.nil_append]
  rw [hfraction]
  dsimp only
  rw [hexponent]
  dsimp only
  rw [if_pos ⟨rfl, rfl⟩, digits_toString, if_pos hn, readInt_toString]

/-- `repr` of the float is a number that reads back as it. -/
structure ReadsFloat (R : Runtime) (L : Reader) (q : ℚ) : Prop where
  literal : isFloatLiteral (R.floatRepr q).toList = true
  chars : ∀ c ∈ (R.floatRepr q).toList, isTokenChar c = true
  reads : L.readFloat (R.floatRepr q).toList = .finite q

/-- A float is read back before any delimiter. -/
theorem scanNumber_float {q : ℚ} (hq : ReadsFloat R L q) {r : Text} (hr : Delimited r) :
    L.scanNumber ((R.floatRepr q).toList ++ r) = .ok (.float (.finite q), r) := by
  have hliteral := hq.literal
  unfold isFloatLiteral at hliteral
  split at hliteral
  · cases hliteral
  · rename_i whole rest hwhole
    obtain ⟨hself, -⟩ := integer?_self hwhole
    have hfraction := fraction_self rest
    have hexponent := exponent_self (fraction rest).2
    rw [Bool.and_eq_true, beq_iff_eq, List.isEmpty_eq_false_iff, List.isEmpty_iff] at hliteral
    obtain ⟨hne, hend⟩ := hliteral
    rw [hend, List.append_nil] at hexponent
    have hall : whole ++ (fraction rest).1 ++ (exponent (fraction rest).2).1
        = (R.floatRepr q).toList := by
      rw [hexponent, List.append_assoc, hfraction, hself]
    unfold scanNumber
    rw [integer?_append hr hwhole]
    dsimp only
    rw [fraction_append hr]
    dsimp only
    rw [exponent_append hr, hend]
    dsimp only [List.nil_append]
    rw [if_neg fun h => hne (by rw [h.1, h.2]; rfl), hall, hq.reads]

/-! ## Names -/

/-- A text that starts with a number starts with no name. -/
theorem no_constant {text whole rest : Text} (h : integer? text = some (whole, rest)) :
    (constants.findSome? fun (name, value) => (after? name text).map fun rest => (value, rest))
      = none := by
  obtain ⟨hself, ds, hwhole, c, hc, hdigit⟩ := integer?_self h
  obtain ⟨tail, hds⟩ := List.head?_eq_some_iff.mp hc
  have hnames : ∀ entry ∈ constants, ∀ t : Text, entry.1 ++ t ≠ text := by
    intro entry hmem t heq
    have hplain : ∀ d : Char, d.isDigit = false → d ≠ c := by
      intro d hd hdc
      rw [hdc, hdigit] at hd
      cases hd
    rw [← hself] at heq
    simp only [constants, List.mem_cons, List.not_mem_nil, or_false] at hmem
    -- the first character that differs: the name's own, or the one after a sign
    rcases hwhole with rfl | rfl
    · rw [hds] at heq
      rcases hmem with rfl | rfl | rfl | rfl | rfl | rfl
      all_goals exact hplain _ rfl (List.cons.inj heq).1
    · rw [hds] at heq
      rcases hmem with rfl | rfl | rfl | rfl | rfl | rfl
      case inr.inr.inr.inr.inr =>
        exact hplain _ rfl (List.cons.inj (List.cons.inj heq).2).1
      all_goals exact absurd (List.cons.inj heq).1 (by decide)
  rw [List.findSome?_eq_none_iff]
  intro entry hmem
  show (after? entry.1 text).map _ = none
  have hnone : after? entry.1 text = none := by
    unfold after?
    rw [if_neg]
    intro hinitial
    obtain ⟨t, ht⟩ := List.isPrefixOf_iff_prefix.mp hinitial
    exact hnames entry hmem t ht
  rw [hnone]
  rfl

/-- Where a number starts no constant does. -/
theorem scanToken_number {text whole rest : Text} (h : integer? text = some (whole, rest)) :
    L.scanToken text = L.scanNumber text := by
  unfold scanToken
  rw [no_constant h]

/-! ## Blanks -/

/-- A character of a token is no blank. -/
theorem isBlank_of_isTokenChar {c : Char} (h : isTokenChar c = true) : isBlank c = false := by
  have hne : ∀ d ∈ [' ', '\t', '\n', '\r'], c ≠ d := by
    intro d hd heq
    rw [heq] at h
    simp only [List.mem_cons, List.not_mem_nil, or_false] at hd
    rcases hd with rfl | rfl | rfl | rfl <;> exact absurd h (by decide)
  simp only [List.mem_cons, List.not_mem_nil, or_false, forall_eq_or_imp, forall_eq] at hne
  rw [isBlank, beq_false_of_ne hne.1, beq_false_of_ne hne.2.1, beq_false_of_ne hne.2.2.1,
    beq_false_of_ne hne.2.2.2]
  rfl

/-- Nothing is skipped before a character that is no blank. -/
theorem skipSpace_cons {c : Char} (hc : isBlank c = false) (rest : Text) :
    skipSpace (c :: rest) = c :: rest := by
  rw [skipSpace, List.dropWhile_cons, hc, if_neg Bool.false_ne_true]

/-- Blanks are skipped whole. -/
theorem skipSpace_blanks {blanks : Text} (h : ∀ c ∈ blanks, isBlank c = true) (rest : Text) :
    skipSpace (blanks ++ rest) = skipSpace rest := by
  induction blanks with
  | nil => rfl
  | cons c blanks ih =>
    rw [List.cons_append, skipSpace, List.dropWhile_cons, if_pos (h c List.mem_cons_self)]
    exact ih fun d hd => h d (List.mem_cons_of_mem c hd)

/-- Blanks are ASCII. -/
theorem isBlank_ascii {c : Char} (h : isBlank c = true) : c.toNat < 127 := by
  simp only [isBlank, Bool.or_eq_true, beq_iff_eq] at h
  rcases h with ((rfl | rfl) | rfl) | rfl <;> decide

/-- The characters of tokens are ASCII. -/
theorem isTokenChar_ascii {c : Char} (h : isTokenChar c = true) : c.toNat < 127 := by
  show c.val.toNat < 127
  have hletter : c.isAlpha = (decide (c.val ≥ 65 ∧ c.val ≤ 90)
      || (decide (c.val ≥ 97) && decide (c.val ≤ 122))) := rfl
  simp only [isTokenChar, Char.isAlphanum, hletter, Char.isDigit, Bool.or_eq_true,
    Bool.and_eq_true, decide_eq_true_eq, beq_iff_eq, UInt32.le_iff_toNat_le, ge_iff_le] at h
  rcases h with ((((⟨-, h⟩ | ⟨-, h⟩) | ⟨-, h⟩) | rfl) | rfl) | rfl
  · exact lt_of_le_of_lt h (by decide)
  · exact lt_of_le_of_lt h (by decide)
  · exact lt_of_le_of_lt h (by decide)
  · decide
  · decide
  · decide

end Reader

/-- Separators of blanks only. -/
def Separators.Blank (separators : Separators) : Prop :=
  (∀ c ∈ separators.afterComma, Reader.isBlank c = true)
    ∧ ∀ c ∈ separators.afterColon, Reader.isBlank c = true

/-- The compact separators have no blanks at all. -/
theorem Separators.compact_blank : Separators.compact.Blank :=
  ⟨fun _ hc => (List.not_mem_nil hc).elim, fun _ hc => (List.not_mem_nil hc).elim⟩

namespace Reader

/-! ## Documents -/

section Readable

variable (R : Runtime) (L : Reader)

mutual

/-- What the interpreter has to allow for a document to be read: its depth, the digits of its
integers, its floats, and keys that differ. -/
def Readable : Json → ℕ → Prop
  | .int n, _ => intDigitCount n ≤ L.intDigits
  | .float (.finite q), _ => ReadsFloat R L q
  | .arr items, depth => 0 < depth ∧ ReadableItems items (depth - 1)
  | .obj fields, depth =>
    0 < depth ∧ (Json.keys fields).Nodup ∧ ReadableFields fields (depth - 1)
  | _, _ => True

def ReadableItems : List Json → ℕ → Prop
  | [], _ => True
  | x :: rest, depth => Readable x depth ∧ ReadableItems rest depth

def ReadableFields : List (String × Json) → ℕ → Prop
  | [], _ => True
  | (_, x) :: rest, depth => Readable x depth ∧ ReadableFields rest depth

end

/-- The items are readable when each is. -/
theorem readableItems_iff {items : List Json} {depth : ℕ} :
    ReadableItems R L items depth ↔ ∀ x ∈ items, Readable R L x depth := by
  induction items with
  | nil => simp [ReadableItems]
  | cons x rest ih => simp [ReadableItems, ih]

/-- The fields are readable when the value of each is. -/
theorem readableFields_iff {fields : List (String × Json)} {depth : ℕ} :
    ReadableFields R L fields depth ↔ ∀ f ∈ fields, Readable R L f.2 depth := by
  induction fields with
  | nil => simp [ReadableFields]
  | cons f rest ih => simp [ReadableFields, ih]

mutual

/-- A document within a depth is within every larger one. -/
theorem readable_mono : ∀ (value : Json) {depth depth' : ℕ}, depth ≤ depth' →
    Readable R L value depth → Readable R L value depth'
  | .null, _, _, _, h | .bool _, _, _, _, h | .int _, _, _, _, h | .str _, _, _, _, h
  | .float (.finite _), _, _, _, h | .float .infinity, _, _, _, h
  | .float .negInfinity, _, _, _, h | .float .nan, _, _, _, h => h
  | .arr items, depth, depth', hle, h =>
    ⟨by have := h.1; omega, readableItems_mono items (by omega) h.2⟩
  | .obj fields, depth, depth', hle, h =>
    ⟨by have := h.1; omega, h.2.1, readableFields_mono fields (by omega) h.2.2⟩

/-- Items within a depth are within every larger one. -/
theorem readableItems_mono : ∀ (items : List Json) {depth depth' : ℕ}, depth ≤ depth' →
    ReadableItems R L items depth → ReadableItems R L items depth'
  | [], _, _, _, _ => trivial
  | x :: rest, _, _, hle, h => ⟨readable_mono x hle h.1, readableItems_mono rest hle h.2⟩

/-- Fields within a depth are within every larger one. -/
theorem readableFields_mono : ∀ (fields : List (String × Json)) {depth depth' : ℕ},
    depth ≤ depth' → ReadableFields R L fields depth → ReadableFields R L fields depth'
  | [], _, _, _, _ => trivial
  | (_, x) :: rest, _, _, hle, h =>
    ⟨readable_mono x hle h.1, readableFields_mono rest hle h.2⟩

end

mutual

/-- The order of the keys does not matter. -/
theorem readable_sorted : ∀ (value : Json) (depth : ℕ), Readable R L value depth →
    Readable R L value.sorted depth
  | .null, _, h | .bool _, _, h | .int _, _, h | .str _, _, h | .float (.finite _), _, h
  | .float .infinity, _, h | .float .negInfinity, _, h | .float .nan, _, h => h
  | .arr items, depth, h => ⟨h.1, readableItems_sorted items (depth - 1) h.2⟩
  | .obj fields, depth, h => by
    obtain ⟨hdepth, hkeys, hfields⟩ := h
    refine ⟨hdepth, ?_, ?_⟩
    · have hperm : (Json.keys (sortByKey (Json.sortedFields fields))).Perm
          (Json.keys (Json.sortedFields fields)) := (perm_sortByKey _).map Prod.fst
      rw [hperm.nodup_iff, Json.sortedFields_eq_map, Json.keys, List.map_map]
      exact hkeys
    · rw [readableFields_iff]
      intro f hf
      exact (readableFields_iff R L).mp (readableFields_sorted fields (depth - 1) hfields) f
        (mem_sortByKey.mp hf)

/-- Sorting the keys inside items keeps them readable. -/
theorem readableItems_sorted : ∀ (items : List Json) (depth : ℕ), ReadableItems R L items depth →
    ReadableItems R L (Json.sortedItems items) depth
  | [], _, _ => trivial
  | x :: rest, depth, h =>
    ⟨readable_sorted x depth h.1, readableItems_sorted rest depth h.2⟩

/-- Sorting the keys inside fields keeps them readable. -/
theorem readableFields_sorted : ∀ (fields : List (String × Json)) (depth : ℕ),
    ReadableFields R L fields depth → ReadableFields R L (Json.sortedFields fields) depth
  | [], _, _ => trivial
  | (_, x) :: rest, depth, h =>
    ⟨readable_sorted x depth h.1, readableFields_sorted rest depth h.2⟩

end

mutual

/-- The keys of a document that is read differ. -/
theorem distinct_of_readable : ∀ (value : Json) {depth : ℕ}, Readable R L value depth →
    value.Distinct
  | .null, _, _ | .bool _, _, _ | .int _, _, _ | .float _, _, _ | .str _, _, _ => trivial
  | .arr items, _, h => distinctItems_of_readable items h.2
  | .obj fields, _, h => ⟨h.2.1, distinctFields_of_readable fields h.2.2⟩

/-- The keys inside readable items differ. -/
theorem distinctItems_of_readable : ∀ (items : List Json) {depth : ℕ},
    ReadableItems R L items depth → Json.DistinctItems items
  | [], _, _ => trivial
  | x :: rest, _, h => ⟨distinct_of_readable x h.1, distinctItems_of_readable rest h.2⟩

/-- The keys inside readable fields differ. -/
theorem distinctFields_of_readable : ∀ (fields : List (String × Json)) {depth : ℕ},
    ReadableFields R L fields depth → Json.DistinctFields fields
  | [], _, _ => trivial
  | (_, x) :: rest, _, h => ⟨distinct_of_readable x h.1, distinctFields_of_readable rest h.2⟩

end

end Readable

mutual

/-- Keys in order stay in order. -/
theorem sorted_sorted : ∀ value : Json, value.Distinct → value.sorted.sorted = value.sorted
  | .null, _ | .bool _, _ | .int _, _ | .float _, _ | .str _, _ => rfl
  | .arr items, h => by rw [Json.sorted, Json.sorted, sortedItems_sorted items h]
  | .obj fields, h => by
    have hkeys : ((Json.sortedFields fields).map Prod.fst).Nodup := by
      rw [Json.keys_sortedFields]
      exact h.1
    have hvalues := sortedFields_sorted fields h.2
    rw [Json.sortedFields_eq_map (Json.sortedFields fields)] at hvalues
    rw [Json.sorted, Json.sorted, Json.sortedFields_eq_map (sortByKey _), map_sortByKey, hvalues,
      sortByKey_sortByKey hkeys]

/-- Sorting the keys inside items twice is sorting them once. -/
theorem sortedItems_sorted : ∀ items : List Json, Json.DistinctItems items →
    Json.sortedItems (Json.sortedItems items) = Json.sortedItems items
  | [], _ => rfl
  | x :: rest, h => by
    rw [Json.sortedItems, Json.sortedItems, sorted_sorted x h.1, sortedItems_sorted rest h.2]

/-- Sorting the keys inside fields twice is sorting them once. -/
theorem sortedFields_sorted : ∀ fields : List (String × Json), Json.DistinctFields fields →
    Json.sortedFields (Json.sortedFields fields) = Json.sortedFields fields
  | [], _ => rfl
  | (key, x) :: rest, h => by
    rw [Json.sortedFields, Json.sortedFields, sorted_sorted x h.1, sortedFields_sorted rest h.2]

end

/-- A hook that makes an object of the pairs it is given, as long as their keys differ. -/
def Keeps (hook : ObjectHook) : Prop :=
  ∀ pairs : List (PyStr × PyJson), (pairs.map Prod.fst).Nodup → hook pairs = .ok pairs

/-- Pairs whose keys differ are kept in their order. -/
theorem foldl_setItem {pairs fields : List (PyStr × PyJson)}
    (hkeys : ((fields ++ pairs).map Prod.fst).Nodup) :
    pairs.foldl (fun fields f => setItem fields f.1 f.2) fields = fields ++ pairs := by
  induction pairs generalizing fields with
  | nil => rw [List.foldl_nil, List.append_nil]
  | cons f rest ih =>
    have hnew : setItem fields f.1 f.2 = fields ++ [f] := by
      unfold setItem
      rw [if_neg]
      intro hany
      obtain ⟨g, hg, hsame⟩ := List.any_eq_true.mp hany
      rw [List.map_append, List.nodup_append'] at hkeys
      have hmem : f.1 ∈ (f :: rest).map Prod.fst := List.mem_cons_self
      exact hkeys.2.2 (List.mem_map_of_mem (f := Prod.fst) hg) (eq_of_beq hsame ▸ hmem)
    rw [List.foldl_cons, hnew, ih (by rwa [List.append_assoc, List.singleton_append]),
      List.append_assoc, List.singleton_append]

/-- `dict` keeps pairs whose keys differ. -/
theorem keeps_dict : Keeps dict := by
  intro pairs hkeys
  have hall : pairs.foldl (fun fields f => setItem fields f.1 f.2) [] = [] ++ pairs :=
    foldl_setItem (by exact hkeys)
  rw [dict, hall, List.nil_append]

section RoundTrip

variable {R : Runtime} {L : Reader} {e : Char → Text} {separators : Separators}
  {hook : ObjectHook}

/-- The scanner reads the text of a value, whatever follows it. -/
def ReadsBack (R : Runtime) (L : Reader) (hook : ObjectHook) (separators : Separators)
    (e : Char → Text) (value : Json) (depth : ℕ) : Prop :=
  ∀ (fuel : ℕ) (r : Text), Delimited r →
    3 * ((R.print separators value).flatMap e ++ r).length < fuel →
    L.scanOnce hook fuel depth ((R.print separators value).flatMap e ++ r)
      = .ok (PyJson.ofJson value, r)

/-- The text of a token is not empty and has characters of tokens only. -/
theorem token_readable {separators : Separators} {value : Json} {depth : ℕ} (htoken : value.isToken = true)
    (h : Readable R L value depth) : R.print separators value ≠ []
      ∧ ∀ c ∈ R.print separators value, isTokenChar c = true := by
  have hconstant : ∀ {v : Json}, v.isConstant = true → R.print separators v ≠ []
      ∧ ∀ c ∈ R.print separators v, isTokenChar c = true := by
    intro v hv
    obtain ⟨hall, hnumber⟩ := print_constant (R := R) separators hv
    refine ⟨fun hnil => ?_, List.all_eq_true.mp hall⟩
    rw [hnil] at hnumber
    cases hnumber
  cases value with
  | null => exact hconstant rfl
  | bool b => exact hconstant rfl
  | int n =>
    obtain ⟨hne, hchars⟩ := int_text n
    refine ⟨hne, fun c hc => ?_⟩
    rcases hchars c hc with hdigit | rfl
    · simp [isTokenChar, Char.isAlphanum, hdigit]
    · rfl
  | float x =>
    cases x with
    | finite q =>
      have hq : ReadsFloat R L q := h
      refine ⟨fun hnil => ?_, hq.chars⟩
      have hliteral := hq.literal
      have htext : (R.floatRepr q).toList = [] := hnil
      rw [htext] at hliteral
      cases hliteral
    | infinity => exact hconstant rfl
    | negInfinity => exact hconstant rfl
    | nan => exact hconstant rfl
  | str s => cases htoken
  | arr items => cases htoken
  | obj fields => cases htoken

/-- A token is read where its characters end. -/
theorem scanToken_print {value : Json} {depth : ℕ} (htoken : value.isToken = true)
    (h : Readable R L value depth) {r : Text} (hr : Delimited r) :
    L.scanToken (R.print separators value ++ r) = .ok (PyJson.ofJson value, r) := by
  cases value with
  | null => rfl
  | bool b => cases b <;> rfl
  | int n =>
    show L.scanToken ((toString n).toList ++ r) = _
    rw [scanToken_number (integer?_append hr (integer?_toString n)), scanNumber_int h hr]
    rfl
  | float x =>
    cases x with
    | finite q =>
      have hq : ReadsFloat R L q := h
      have hliteral := hq.literal
      unfold isFloatLiteral at hliteral
      split at hliteral
      · cases hliteral
      · rename_i hwhole
        show L.scanToken ((R.floatRepr q).toList ++ r) = _
        rw [scanToken_number (integer?_append hr hwhole), scanNumber_float hq hr]
        rfl
    | infinity => rfl
    | negInfinity => rfl
    | nan => rfl
  | str s => cases htoken
  | arr items => cases htoken
  | obj fields => cases htoken

/-- After an item its array goes on, or ends. -/
theorem scanNext_close {closing : Char} (hblank : isBlank closing = false) (r : Text) :
    scanNext closing (closing :: r) = .ok (true, r) := by
  unfold scanNext
  rw [skipSpace_cons hblank, if_pos List.head?_cons]
  rfl

/-- A comma announces another item. -/
theorem scanNext_comma {closing : Char} (hne : closing ≠ ',') (r : Text) :
    scanNext closing (',' :: r) = .ok (false, r) := by
  unfold scanNext
  rw [skipSpace_cons (by decide), List.head?_cons, if_neg fun h => hne (Option.some.inj h).symm,
    if_pos rfl]
  rfl

/-- The expected character is found where it stands first. -/
theorem expect_cons {c : Char} (hblank : isBlank c = false) (r : Text) :
    expect c (c :: r) = .ok r := by
  unfold expect
  rw [skipSpace_cons hblank, if_pos List.head?_cons]
  rfl

variable (he : Encodes e)

include he

/-- An ASCII character is written as it is. -/
theorem flatMap_cons_plain {c : Char} (hc : c.toNat < 127) (rest : Text) :
    (c :: rest).flatMap e = c :: rest.flatMap e := by
  rw [List.flatMap_cons, he.plain c hc]
  rfl

/-- Blanks are written as they are. -/
theorem flatMap_blanks {blanks : Text} (h : ∀ c ∈ blanks, isBlank c = true) :
    blanks.flatMap e = blanks := flatMap_plain he.plain fun c hc => isBlank_ascii (h c hc)

/-- What the text of a value starts with: ASCII, no blank and no closing bracket. -/
theorem exists_head (separators : Separators) {value : Json} {depth : ℕ} (h : Readable R L value depth) (r : Text) :
    ∃ c tail, (R.print separators value).flatMap e ++ r = c :: tail
      ∧ isBlank c = false ∧ c ≠ ']' ∧ c.toNat < 127 := by
  have htoken : value.isToken = true → ∃ c tail,
      (R.print separators value).flatMap e ++ r = c :: tail
        ∧ isBlank c = false ∧ c ≠ ']' ∧ c.toNat < 127 := by
    intro htoken
    obtain ⟨hne, hall⟩ := token_readable htoken h
    rw [flatMap_plain he.plain fun c hc => isTokenChar_ascii (hall c hc)]
    obtain ⟨c, tail, hcons⟩ := List.exists_cons_of_ne_nil hne
    have hc : isTokenChar c = true := hall c (by rw [hcons]; exact List.mem_cons_self)
    rw [hcons]
    refine ⟨c, tail ++ r, rfl, isBlank_of_isTokenChar hc, ?_, isTokenChar_ascii hc⟩
    rintro rfl
    cases hc
  have hopening : ∀ (c : Char) (text : Text), c.toNat < 127 → isBlank c = false → c ≠ ']' →
      ∃ d tail, (c :: text).flatMap e ++ r = d :: tail ∧ isBlank d = false ∧ d ≠ ']' ∧ d.toNat < 127 := by
    intro c text hc hblank hne
    refine ⟨c, text.flatMap e ++ r, ?_, hblank, hne, hc⟩
    rw [flatMap_cons_plain he hc, List.cons_append]
  cases value with
  | null => exact htoken rfl
  | bool b => exact htoken rfl
  | int n => exact htoken rfl
  | float x => exact htoken (by cases x <;> rfl)
  | str s => exact hopening '"' _ (by decide) rfl (by decide)
  | arr items => exact hopening '[' _ (by decide) rfl (by decide)
  | obj fields => exact hopening '\x7b' _ (by decide) rfl (by decide)

/-- Constants and numbers are read back. -/
theorem readsBack_token {value : Json} {depth : ℕ} (htoken : value.isToken = true)
    (h : Readable R L value depth) : ReadsBack R L hook separators e value depth := by
  intro fuel r hr hfuel
  obtain ⟨hne, hall⟩ := token_readable htoken h
  obtain ⟨fuel, rfl⟩ : ∃ k, fuel = k + 1 := ⟨fuel - 1, by omega⟩
  rw [flatMap_plain he.plain fun c hc => isTokenChar_ascii (hall c hc)] at hfuel ⊢
  have hhead : ∀ d : Char, isTokenChar d = false →
      (R.print separators value ++ r).head? ≠ some d := by
    intro d hd hhead
    obtain ⟨c, tail, hcons⟩ := List.exists_cons_of_ne_nil hne
    rw [hcons] at hhead
    have hc : isTokenChar c = true := hall c (by rw [hcons]; exact List.mem_cons_self)
    rw [Option.some.inj hhead, hd] at hc
    cases hc
  rw [scanOnce, if_neg (hhead _ (by decide)), if_neg (hhead _ (by decide)),
    if_neg (hhead _ (by decide)), scanToken_print htoken h hr]

/-- Strings are read back. -/
theorem readsBack_str (s : String) (depth : ℕ) :
    ReadsBack R L hook separators e (.str s) depth := by
  intro fuel r hr hfuel
  obtain ⟨fuel, rfl⟩ : ∃ k, fuel = k + 1 := ⟨fuel - 1, by omega⟩
  have htext : (R.print separators (.str s)).flatMap e ++ r
      = '"' :: ((s.toList.flatMap escapeChar).flatMap e ++ '"' :: r) := by
    show ('"' :: (s.toList.flatMap escapeChar ++ ['"'])).flatMap e ++ r = _
    have hquote : ['"'].flatMap e = ['"'] := flatMap_plain he.plain (ascii_of_all (by decide))
    rw [flatMap_cons_plain he (by decide), List.flatMap_append, hquote, List.cons_append,
      List.append_assoc]
    rfl
  rw [htext]
  exact scanOnce_str (scanString_quote he s r)

/-- A character outside tokens delimits what stands before it. -/
theorem delimited_flatMap {c : Char} (hchar : isTokenChar c = false) (hascii : c.toNat < 127)
    (tail r : Text) : Delimited ((c :: tail).flatMap e ++ r) := by
  rw [flatMap_cons_plain he hascii, List.cons_append]
  intro d hd
  rw [← Option.some.inj hd]
  exact hchar

/-- A comma or the closing bracket delimits an item. -/
theorem delimited_printMoreItems (items : List Json) (r : Text) :
    Delimited ((R.printMoreItems separators items).flatMap e ++ r) := by
  cases items with
  | nil => exact delimited_flatMap he (by decide) (by decide) _ r
  | cons x rest => exact delimited_flatMap he (by decide) (by decide) _ r

/-- A comma or the closing brace delimits a field. -/
theorem delimited_printMoreFields (fields : List (String × Json)) (r : Text) :
    Delimited ((R.printMoreFields separators fields).flatMap e ++ r) := by
  cases fields with
  | nil => exact delimited_flatMap he (by decide) (by decide) _ r
  | cons f rest => exact delimited_flatMap he (by decide) (by decide) _ r

/-! ### Arrays -/

/-- The text of the items after one item is read back. -/
def ReadsMoreItems (R : Runtime) (L : Reader) (hook : ObjectHook) (separators : Separators)
    (e : Char → Text) (items : List Json) (depth : ℕ) : Prop :=
  ∀ (fuel : ℕ) (r : Text), 3 * ((R.printMoreItems separators items).flatMap e ++ r).length < fuel →
    L.scanMoreItems hook fuel depth ((R.printMoreItems separators items).flatMap e ++ r)
      = .ok (PyJson.ofItems items, r)

/-- Blanks before a value are skipped and nothing of the value is. -/
theorem skipSpace_value {value : Json} {depth : ℕ} (h : Readable R L value depth) {blanks : Text}
    (hblanks : ∀ c ∈ blanks, isBlank c = true) (r : Text) :
    skipSpace (blanks ++ ((R.print separators value).flatMap e ++ r))
      = (R.print separators value).flatMap e ++ r := by
  obtain ⟨c, tail, hcons, hblank, -⟩ := exists_head he separators h r
  rw [skipSpace_blanks hblanks, hcons, skipSpace_cons hblank]

/-- After the last item the array is closed. -/
theorem readsMoreItems_nil (depth : ℕ) : ReadsMoreItems R L hook separators e [] depth := by
  intro fuel r hfuel
  obtain ⟨fuel, rfl⟩ : ∃ k, fuel = k + 1 := ⟨fuel - 1, by omega⟩
  show L.scanMoreItems hook (fuel + 1) depth ([']'].flatMap e ++ r) = _
  rw [flatMap_cons_plain he (by decide), List.flatMap_nil, scanMoreItems, List.singleton_append,
    scanNext_close (by decide)]
  rfl

/-- After an item the next one is read, and those after it. -/
theorem readsMoreItems_cons (hblank : separators.Blank) {x : Json} {rest : List Json} {depth : ℕ}
    (hreadable : Readable R L x depth) (hx : ReadsBack R L hook separators e x depth)
    (hrest : ReadsMoreItems R L hook separators e rest depth) :
    ReadsMoreItems R L hook separators e (x :: rest) depth := by
  intro fuel r hfuel
  obtain ⟨fuel, rfl⟩ : ∃ k, fuel = k + 1 := ⟨fuel - 1, by omega⟩
  have htext : (R.printMoreItems separators (x :: rest)).flatMap e ++ r
      = ',' :: (separators.afterComma ++ ((R.print separators x).flatMap e
        ++ ((R.printMoreItems separators rest).flatMap e ++ r))) := by
    show (',' :: (separators.afterComma ++ (R.print separators x
      ++ R.printMoreItems separators rest))).flatMap e ++ r = _
    rw [flatMap_cons_plain he (by decide), List.flatMap_append, List.flatMap_append,
      flatMap_blanks he hblank.1, List.cons_append, List.append_assoc, List.append_assoc]
  rw [htext] at hfuel ⊢
  simp only [List.length_cons, List.length_append] at hfuel
  refine scanMoreItems_cons (scanNext_comma (by decide) _) ?_
    (hrest fuel r (by simp only [List.length_append]; omega))
  rw [skipSpace_value he hreadable hblank.1]
  exact hx fuel _ (delimited_printMoreItems he rest r) (by simp only [List.length_append]; omega)

/-- The items of an array are read back, none included. -/
theorem readsItems {items : List Json} {depth : ℕ} (hreadable : ReadableItems R L items depth)
    (hitems : ∀ x ∈ items.head?, ReadsBack R L hook separators e x depth)
    (hmore : ReadsMoreItems R L hook separators e items.tail depth) {fuel : ℕ} {r : Text}
    (hfuel : 3 * ((R.printItems separators items).flatMap e ++ r).length < fuel) :
    L.scanItems hook (fuel + 1) depth ((R.printItems separators items).flatMap e ++ r)
      = .ok (PyJson.ofItems items, r) := by
  cases items with
  | nil =>
    show L.scanItems hook (fuel + 1) depth ([']'].flatMap e ++ r) = _
    rw [flatMap_cons_plain he (by decide), List.flatMap_nil, scanItems, List.singleton_append,
      skipSpace_cons (by decide), if_pos List.head?_cons]
    rfl
  | cons x rest =>
    have hx : Readable R L x depth := hreadable.1
    have hsplit : (R.printItems separators (x :: rest)).flatMap e ++ r
        = (R.print separators x).flatMap e
          ++ ((R.printMoreItems separators rest).flatMap e ++ r) := by
      rw [Runtime.printItems, List.flatMap_append, List.append_assoc]
    rw [hsplit] at hfuel ⊢
    simp only [List.length_append] at hfuel
    -- a value does not start with a blank or with the closing bracket
    have hskip : skipSpace ([] ++ ((R.print separators x).flatMap e
        ++ ((R.printMoreItems separators rest).flatMap e ++ r))) = _ :=
      skipSpace_value he hx (by simp) _
    obtain ⟨c, tail, hcons, -, hbracket, -⟩ := exists_head he separators hx
      ((R.printMoreItems separators rest).flatMap e ++ r)
    have hhead : ((R.print separators x).flatMap e
        ++ ((R.printMoreItems separators rest).flatMap e ++ r)).head? ≠ some ']' := by
      rw [hcons]
      exact fun h => hbracket (Option.some.inj h)
    -- the first item is delimited by what follows it
    have honce := hitems x rfl fuel _ (delimited_printMoreItems he rest r)
      (by simp only [List.length_append]; omega)
    have hrest : L.scanMoreItems hook fuel depth
        ((R.printMoreItems separators rest).flatMap e ++ r) = .ok (PyJson.ofItems rest, r) := by
      apply hmore fuel r
      show 3 * ((R.printMoreItems separators rest).flatMap e ++ r).length < fuel
      simp only [List.length_append]
      omega
    rw [List.nil_append] at hskip
    exact scanItems_cons (by rw [hskip]; exact hhead) (by rw [hskip]; exact honce) hrest

/-- An array is read back with its items, one level down. -/
theorem readsBack_arr {items : List Json} {depth : ℕ} (hreadable : ReadableItems R L items depth)
    (hitems : ∀ x ∈ items.head?, ReadsBack R L hook separators e x depth)
    (hmore : ReadsMoreItems R L hook separators e items.tail depth) :
    ReadsBack R L hook separators e (.arr items) (depth + 1) := by
  intro fuel r hr hfuel
  have htext : (R.print separators (.arr items)).flatMap e ++ r
      = '[' :: ((R.printItems separators items).flatMap e ++ r) := by
    rw [R.print_arr, flatMap_cons_plain he (by decide), List.cons_append]
  rw [htext] at hfuel ⊢
  rw [List.length_cons] at hfuel
  obtain ⟨fuel, rfl⟩ : ∃ k, fuel = k + 2 := ⟨fuel - 2, by omega⟩
  exact scanOnce_arr (readsItems he hreadable hitems hmore (by omega))

/-! ### Objects -/

/-- The text of the fields after one field is read back. -/
def ReadsMoreFields (R : Runtime) (L : Reader) (hook : ObjectHook) (separators : Separators)
    (e : Char → Text) (fields : List (String × Json)) (depth : ℕ) : Prop :=
  ∀ (fuel : ℕ) (r : Text),
    3 * ((R.printMoreFields separators fields).flatMap e ++ r).length < fuel →
    L.scanMorePairs hook fuel depth ((R.printMoreFields separators fields).flatMap e ++ r)
      = .ok (PyJson.ofFields fields, r)

/-- The text of a field and of those after it. -/
def fieldText (R : Runtime) (separators : Separators) (e : Char → Text) (key : String) (x : Json)
    (rest : Text) : Text :=
  '"' :: ((key.toList.flatMap escapeChar).flatMap e
    ++ '"' :: ':' :: (separators.afterColon ++ ((R.print separators x).flatMap e ++ rest)))

/-- A field is written as its key, a colon and its value. -/
theorem flatMap_field (hblank : separators.Blank) (key : String) (x : Json) (tail r : Text) :
    (quote key ++ ':' :: (separators.afterColon ++ (R.print separators x ++ tail))).flatMap e ++ r
      = fieldText R separators e key x (tail.flatMap e ++ r) := by
  have hquote : ['"'].flatMap e = ['"'] := flatMap_plain he.plain (ascii_of_all (by decide))
  show ('"' :: (key.toList.flatMap escapeChar ++ ['"'])
    ++ ':' :: (separators.afterColon ++ (R.print separators x ++ tail))).flatMap e ++ r = _
  rw [List.flatMap_append, flatMap_cons_plain he (by decide), flatMap_cons_plain he (by decide),
    List.flatMap_append, List.flatMap_append, List.flatMap_append, hquote,
    flatMap_blanks he hblank.2]
  simp only [fieldText, List.cons_append, List.append_assoc, List.nil_append]

/-- A field is read back. -/
theorem readsPair (hblank : separators.Blank) {key : String} {x : Json} {depth : ℕ}
    (hreadable : Readable R L x depth) (hx : ReadsBack R L hook separators e x depth)
    {blanks : Text} (hblanks : ∀ c ∈ blanks, isBlank c = true) {fuel : ℕ} {r : Text}
    (hr : Delimited r) (hfuel : 3 * (fieldText R separators e key x r).length < fuel) :
    L.scanPair hook fuel depth (blanks ++ fieldText R separators e key x r)
      = .ok ((PyStr.ofString key, PyJson.ofJson x), r) := by
  obtain ⟨fuel, rfl⟩ : ∃ k, fuel = k + 1 := ⟨fuel - 1, by omega⟩
  simp only [fieldText, List.length_cons, List.length_append] at hfuel
  have hexpect : expect '"' (blanks ++ fieldText R separators e key x r)
      = .ok ((key.toList.flatMap escapeChar).flatMap e
        ++ '"' :: ':' :: (separators.afterColon ++ ((R.print separators x).flatMap e ++ r))) := by
    unfold expect
    rw [skipSpace_blanks hblanks]
    exact expect_cons (by decide) _
  refine scanPair_eq hexpect (scanString_quote he key _) (expect_cons (by decide) _) ?_
  rw [skipSpace_value he hreadable hblank.2]
  exact hx fuel r hr (by simp only [List.length_append]; omega)

/-- After the last field the object is closed. -/
theorem readsMoreFields_nil (depth : ℕ) : ReadsMoreFields R L hook separators e [] depth := by
  intro fuel r hfuel
  obtain ⟨fuel, rfl⟩ : ∃ k, fuel = k + 1 := ⟨fuel - 1, by omega⟩
  show L.scanMorePairs hook (fuel + 1) depth (['\x7d'].flatMap e ++ r) = _
  rw [flatMap_cons_plain he (by decide), List.flatMap_nil, scanMorePairs, List.singleton_append,
    scanNext_close (by decide)]
  rfl

/-- After a field the next one is read, and those after it. -/
theorem readsMoreFields_cons (hblank : separators.Blank) {key : String} {x : Json}
    {rest : List (String × Json)} {depth : ℕ} (hreadable : Readable R L x depth)
    (hx : ReadsBack R L hook separators e x depth)
    (hrest : ReadsMoreFields R L hook separators e rest depth) :
    ReadsMoreFields R L hook separators e ((key, x) :: rest) depth := by
  intro fuel r hfuel
  obtain ⟨fuel, rfl⟩ : ∃ k, fuel = k + 1 := ⟨fuel - 1, by omega⟩
  have htext : (R.printMoreFields separators ((key, x) :: rest)).flatMap e ++ r
      = ',' :: (separators.afterComma ++ fieldText R separators e key x
        ((R.printMoreFields separators rest).flatMap e ++ r)) := by
    rw [Runtime.printMoreFields, flatMap_cons_plain he (by decide), List.flatMap_append,
      flatMap_blanks he hblank.1, List.cons_append, List.append_assoc, flatMap_field he hblank]
  rw [htext] at hfuel ⊢
  simp only [List.length_cons, List.length_append] at hfuel
  have hlength : ((R.printMoreFields separators rest).flatMap e ++ r).length
      ≤ (fieldText R separators e key x
        ((R.printMoreFields separators rest).flatMap e ++ r)).length := by
    simp only [fieldText, List.length_cons, List.length_append]
    omega
  refine scanMorePairs_cons (scanNext_comma (by decide) _)
    (readsPair he hblank hreadable hx hblank.1 (delimited_printMoreFields he rest r) ?_)
    (hrest fuel r (by omega))
  omega

/-- The fields of an object are read back, none included. -/
theorem readsFields (hblank : separators.Blank) {fields : List (String × Json)} {depth : ℕ}
    (hreadable : ReadableFields R L fields depth)
    (hfields : ∀ f ∈ fields.head?, ReadsBack R L hook separators e f.2 depth)
    (hmore : ReadsMoreFields R L hook separators e fields.tail depth) {fuel : ℕ} {r : Text}
    (hfuel : 3 * ((R.printFields separators fields).flatMap e ++ r).length < fuel) :
    L.scanPairs hook (fuel + 1) depth ((R.printFields separators fields).flatMap e ++ r)
      = .ok (PyJson.ofFields fields, r) := by
  cases fields with
  | nil =>
    show L.scanPairs hook (fuel + 1) depth (['\x7d'].flatMap e ++ r) = _
    rw [flatMap_cons_plain he (by decide), List.flatMap_nil, scanPairs, List.singleton_append,
      skipSpace_cons (by decide), if_pos List.head?_cons]
    rfl
  | cons f rest =>
    obtain ⟨key, x⟩ := f
    have hx : Readable R L x depth := hreadable.1
    have htext : (R.printFields separators ((key, x) :: rest)).flatMap e ++ r
        = fieldText R separators e key x ((R.printMoreFields separators rest).flatMap e ++ r) := by
      rw [Runtime.printFields, flatMap_field he hblank]
    rw [htext] at hfuel ⊢
    have hpair : L.scanPair hook fuel depth ([] ++ fieldText R separators e key x
        ((R.printMoreFields separators rest).flatMap e ++ r)) = _ :=
      readsPair he hblank hx (hfields _ rfl) (by simp) (delimited_printMoreFields he rest r) hfuel
    have hlength : ((R.printMoreFields separators rest).flatMap e ++ r).length
        ≤ (fieldText R separators e key x
          ((R.printMoreFields separators rest).flatMap e ++ r)).length := by
      simp only [fieldText, List.length_cons, List.length_append]
      omega
    have hrest : L.scanMorePairs hook fuel depth
        ((R.printMoreFields separators rest).flatMap e ++ r) = .ok (PyJson.ofFields rest, r) := by
      apply hmore fuel r
      show 3 * ((R.printMoreFields separators rest).flatMap e ++ r).length < fuel
      omega
    have hskip : skipSpace (fieldText R separators e key x
        ((R.printMoreFields separators rest).flatMap e ++ r)) = fieldText R separators e key x
        ((R.printMoreFields separators rest).flatMap e ++ r) := skipSpace_cons (by decide) _
    rw [List.nil_append] at hpair
    exact scanPairs_cons (by rw [hskip]; simp [fieldText]) hpair hrest

omit he in
/-- The keys of an object are carried over pointwise. -/
theorem keys_ofFields (fields : List (String × Json)) :
    (PyJson.ofFields fields).map Prod.fst = (Json.keys fields).map PyStr.ofString := by
  rw [PyJson.ofFields_eq_map, Json.keys, List.map_map, List.map_map]
  rfl

/-- An object is read back with its fields, one level down, where the hook keeps them. -/
theorem readsBack_obj (hblank : separators.Blank) (hkeeps : Keeps hook)
    {fields : List (String × Json)} {depth : ℕ} (hkeys : (Json.keys fields).Nodup)
    (hreadable : ReadableFields R L fields depth)
    (hfields : ∀ f ∈ fields.head?, ReadsBack R L hook separators e f.2 depth)
    (hmore : ReadsMoreFields R L hook separators e fields.tail depth) :
    ReadsBack R L hook separators e (.obj fields) (depth + 1) := by
  intro fuel r hr hfuel
  have htext : (R.print separators (.obj fields)).flatMap e ++ r
      = '\x7b' :: ((R.printFields separators fields).flatMap e ++ r) := by
    rw [R.print_obj, flatMap_cons_plain he (by decide), List.cons_append]
  have hnodup : ((PyJson.ofFields fields).map Prod.fst).Nodup := by
    rw [keys_ofFields]
    exact hkeys.map PyStr.ofString_injective
  rw [htext] at hfuel ⊢
  rw [List.length_cons] at hfuel
  obtain ⟨fuel, rfl⟩ : ∃ k, fuel = k + 2 := ⟨fuel - 2, by omega⟩
  have hobject : makeObject hook (PyJson.ofFields fields) = .ok (.obj (PyJson.ofFields fields)) := by
    rw [makeObject, hkeeps _ hnodup]
  exact scanOnce_obj (readsFields he hblank hreadable hfields hmore (by omega)) hobject

/-! ### Every document -/

omit he

mutual

/-- What is written is read back, by recursion over the document. -/
theorem readsBack (he : Encodes e) (hblank : separators.Blank) (hkeeps : Keeps hook) :
    ∀ (value : Json) (depth : ℕ), Readable R L value depth →
      ReadsBack R L hook separators e value depth
  | .null, _, h | .bool _, _, h | .int _, _, h | .float (.finite _), _, h
  | .float .infinity, _, h | .float .negInfinity, _, h | .float .nan, _, h =>
    readsBack_token he rfl h
  | .str s, depth, _ => readsBack_str he s depth
  | .arr [], depth + 1, h => readsBack_arr he h.2 (by simp) (readsMoreItems_nil he depth)
  | .arr (x :: rest), depth + 1, h =>
    readsBack_arr he h.2
      (by
        intro y hy
        cases hy
        exact readsBack he hblank hkeeps x depth h.2.1)
      (readsMoreItems he hblank hkeeps rest depth h.2.2)
  | .obj [], depth + 1, h =>
    readsBack_obj he hblank hkeeps h.2.1 h.2.2 (by simp) (readsMoreFields_nil he depth)
  | .obj ((key, x) :: rest), depth + 1, h =>
    readsBack_obj he hblank hkeeps h.2.1 h.2.2
      (by
        intro f hf
        cases hf
        exact readsBack he hblank hkeeps x depth h.2.2.1)
      (readsMoreFields he hblank hkeeps rest depth h.2.2.2)

/-- The items after one are read back, by recursion with the values. -/
theorem readsMoreItems (he : Encodes e) (hblank : separators.Blank) (hkeeps : Keeps hook) :
    ∀ (items : List Json) (depth : ℕ), ReadableItems R L items depth →
      ReadsMoreItems R L hook separators e items depth
  | [], depth, _ => readsMoreItems_nil he depth
  | x :: rest, depth, h =>
    readsMoreItems_cons he hblank h.1 (readsBack he hblank hkeeps x depth h.1)
      (readsMoreItems he hblank hkeeps rest depth h.2)

/-- The fields after one are read back, by recursion with the values. -/
theorem readsMoreFields (he : Encodes e) (hblank : separators.Blank) (hkeeps : Keeps hook) :
    ∀ (fields : List (String × Json)) (depth : ℕ), ReadableFields R L fields depth →
      ReadsMoreFields R L hook separators e fields depth
  | [], depth, _ => readsMoreFields_nil he depth
  | (_, x) :: rest, depth, h =>
    readsMoreFields_cons he hblank h.1 (readsBack he hblank hkeeps x depth h.1)
      (readsMoreFields he hblank hkeeps rest depth h.2)

end

/-- A text written by `json.dumps`, with `ensure_ascii` or without, and read again. -/
theorem loads_print (he : Encodes e) (hblank : separators.Blank) (hkeeps : Keeps hook)
    {value : Json} (h : Readable R L value L.depth) :
    L.loads hook ((R.print separators value).flatMap e) = .ok (PyJson.ofJson value) := by
  have hnil : Delimited [] := fun c hc => by cases hc
  obtain ⟨c, tail, hcons, hblank', -, hascii⟩ := exists_head he separators h []
  rw [List.append_nil] at hcons
  have hmark : c ≠ Char.ofNat 0xFEFF := by
    intro heq
    rw [heq] at hascii
    exact absurd hascii (by decide)
  have hread : L.scanOnce hook (3 * ((R.print separators value).flatMap e).length + 3) L.depth
      ((R.print separators value).flatMap e ++ []) = .ok (PyJson.ofJson value, []) := by
    apply readsBack he hblank hkeeps value L.depth h _ [] hnil
    rw [List.append_nil]
    omega
  rw [List.append_nil] at hread
  unfold loads
  rw [hcons] at hread ⊢
  rw [List.head?_cons, if_neg fun hc => hmark (Option.some.inj hc), skipSpace_cons hblank', hread]
  rfl

end RoundTrip

/-! ## The repository's texts -/

variable {R : Runtime} {L : Reader} {hook : ObjectHook}

/-- `json.loads` of a text `canonical_json` wrote. -/
theorem loads_dumps (hkeeps : Keeps hook) {value : Json} (h : Readable R L value L.depth) :
    L.loads hook (R.dumps value) = .ok (PyJson.ofJson value.sorted) := by
  have hread := loads_print encodes_self Separators.compact_blank hkeeps
    (readable_sorted R L value L.depth h)
  rw [List.flatMap_singleton'] at hread
  rw [dumps_eq_dumpsWith]
  exact hread

/-- `json.loads` of a text `json.dumps` wrote with `ensure_ascii`. -/
theorem loads_dumpsAscii (hkeeps : Keeps hook) {value : Json} (h : Readable R L value L.depth) :
    L.loads hook (Inventory.dumpsAscii R value) = .ok (PyJson.ofJson value.sorted) := by
  have hread := loads_print encodes_ascii Separators.compact_blank hkeeps
    (readable_sorted R L value L.depth h)
  rw [Inventory.dumpsAscii, dumps_eq_dumpsWith]
  exact hread

/-- `json.loads(text)` as a document whose strings can be encoded. -/
def json? (L : Reader) (text : Text) : Option Json :=
  match L.loads dict text with
  | .ok value => value.toJson?
  | .error _ => none

/-- What `json.loads(text)` does where there is no such document. -/
def unread (L : Reader) (text : Text) : Unread :=
  match L.loads dict text with
  | .ok value => .surrogates value
  | .error .digits => .digits
  | .error .recursion => .recursion
  | .error _ => .decode

/-- A readable document is read back from its canonical text, with its keys in order. -/
theorem json?_dumps {value : Json} (h : Readable R L value L.depth) :
    L.json? (R.dumps value) = some value.sorted := by
  rw [json?, loads_dumps keeps_dict h]
  exact PyJson.toJson?_ofJson _

/-- A readable document is read back from its ASCII text, with its keys in order. -/
theorem json?_dumpsAscii {value : Json} (h : Readable R L value L.depth) :
    L.json? (Inventory.dumpsAscii R value) = some value.sorted := by
  rw [json?, loads_dumpsAscii keeps_dict h]
  exact PyJson.toJson?_ofJson _

end Reader

end FrappeController
