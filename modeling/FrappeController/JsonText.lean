import FrappeController.CanonicalJson
import Std.Data.String.ToInt

/-!
# JSON texts determine their values

`json.dumps` with any separators writes a value whose text nothing else has: two values whose
sorted texts are equal are equal up to the order of their keys. The only thing asked of the
library is that `repr` of a float is read back as that float (`FloatRepr`).
-/

namespace FrappeController

/-- The blanks `json.dumps` writes after a comma and after a colon. -/
structure Separators where
  afterComma : Text
  afterColon : Text

namespace Separators

/-- `separators=(",", ":")` -/
def compact : Separators := ⟨[], []⟩

/-- The default separators, `(", ", ": ")`. -/
def spaced : Separators := ⟨[' '], [' ']⟩

end Separators

namespace Runtime

section Print

variable (R : Runtime) (separators : Separators)

mutual

/-- `json.dumps(value, ensure_ascii=False)`, the fields in the order they have. -/
def print : Json → Text
  | .null => "null".toList
  | .bool b => (if b then "true" else "false").toList
  | .int n => (toString n).toList
  | .float (.finite q) => (R.floatRepr q).toList
  | .float .infinity => "Infinity".toList
  | .float .negInfinity => "-Infinity".toList
  | .float .nan => "NaN".toList
  | .str s => quote s
  | .arr items => '[' :: printItems items
  | .obj fields => '{' :: printFields fields

/-- The items of an array and its closing bracket. -/
def printItems : List Json → Text
  | [] => [']']
  | x :: rest => print x ++ printMoreItems rest

def printMoreItems : List Json → Text
  | [] => [']']
  | x :: rest => ',' :: (separators.afterComma ++ (print x ++ printMoreItems rest))

/-- The fields of an object and its closing brace. -/
def printFields : List (String × Json) → Text
  | [] => ['}']
  | (key, x) :: rest =>
    quote key ++ ':' :: (separators.afterColon ++ (print x ++ printMoreFields rest))

def printMoreFields : List (String × Json) → Text
  | [] => ['}']
  | (key, x) :: rest =>
    ',' :: (separators.afterComma
      ++ (quote key ++ ':' :: (separators.afterColon ++ (print x ++ printMoreFields rest))))

end

/-- An array is printed as its bracket and its items. -/
theorem print_arr (items : List Json) :
    R.print separators (.arr items) = '[' :: R.printItems separators items := rfl

/-- An object is printed as its brace and its fields. -/
theorem print_obj (fields : List (String × Json)) :
    R.print separators (.obj fields) = '{' :: R.printFields separators fields := rfl

/-- `json.dumps(value, sort_keys=True, ensure_ascii=False)` -/
def dumpsWith (value : Json) : Text := R.print separators value.sorted

end Print

end Runtime

/-! ## Strings -/

/-- The digit a hexadecimal character stands for. -/
def hexValue (c : Char) : ℕ := if c.isDigit then c.toNat - 48 else c.toNat - 87

/-- The character a simple escape stands for. -/
def unescapeChar (c : Char) : Char :=
  if c = 'n' then '\n' else if c = 'r' then '\r' else if c = 't' then '\t'
  else if c = 'b' then Char.ofNat 8 else if c = 'f' then Char.ofNat 12 else c

/-- The first character of the rest of a quoted text, and what follows it. -/
def unescape : Text → Option (Char × Text)
  | '\\' :: 'u' :: _ :: _ :: a :: b :: rest =>
    some (Char.ofNat (16 * hexValue a + hexValue b), rest)
  | '\\' :: c :: rest => some (unescapeChar c, rest)
  | c :: rest => some (c, rest)
  | [] => none

/-- Two hexadecimal digits stand for the control character they escape. -/
theorem hexByte_value : ∀ n < 32, 16 * hexValue (Nat.digitChar (n / 16))
    + hexValue (Nat.digitChar (n % 16)) = n := by
  decide

/-- An escaped character is taken back, whatever follows it. -/
theorem unescape_escapeChar (c : Char) (rest : Text) :
    unescape (escapeChar c ++ rest) = some (c, rest) := by
  unfold escapeChar
  -- the escapes are tried in the order of the code
  by_cases hquote : c = '"'
  · subst hquote
    rfl
  rw [if_neg hquote]
  by_cases hbackslash : c = '\\'
  · subst hbackslash
    rfl
  rw [if_neg hbackslash]
  by_cases hnewline : c = '\n'
  · subst hnewline
    rfl
  rw [if_neg hnewline]
  by_cases hreturn : c = '\r'
  · subst hreturn
    rfl
  rw [if_neg hreturn]
  by_cases htab : c = '\t'
  · subst htab
    rfl
  rw [if_neg htab]
  by_cases hbackspace : c.toNat = 8
  · rw [if_pos hbackspace, ← c.ofNat_toNat, hbackspace]
    rfl
  rw [if_neg hbackspace]
  by_cases hfeed : c.toNat = 12
  · rw [if_pos hfeed, ← c.ofNat_toNat, hfeed]
    rfl
  rw [if_neg hfeed]
  by_cases hcontrol : c.toNat < 32
  · rw [if_pos hcontrol]
    show some (Char.ofNat (16 * hexValue (Nat.digitChar (c.toNat / 16))
      + hexValue (Nat.digitChar (c.toNat % 16))), rest) = some (c, rest)
    rw [hexByte_value _ hcontrol, c.ofNat_toNat]
  · rw [if_neg hcontrol]
    show unescape (c :: rest) = _
    unfold unescape
    split
    · rename_i heq
      exact absurd (List.cons.inj heq).1 hbackslash
    · rename_i heq
      exact absurd (List.cons.inj heq).1 hbackslash
    · rename_i heq
      obtain ⟨rfl, rfl⟩ := List.cons.inj heq
      rfl
    · rename_i heq
      cases heq

/-- An escaped character never looks like the closing quote. -/
theorem head_escapeChar (c : Char) (rest : Text) : (escapeChar c ++ rest).head? ≠ some '"' := by
  unfold escapeChar
  by_cases hquote : c = '"'
  · subst hquote
    simp
  · split_ifs <;> simp [hquote]

/-- A quoted text ends at its own closing quote. -/
theorem escaped_injective {cs ds r r' : Text}
    (h : cs.flatMap escapeChar ++ '"' :: r = ds.flatMap escapeChar ++ '"' :: r') :
    cs = ds ∧ r = r' := by
  induction cs generalizing ds with
  | nil =>
    cases ds with
    | nil => exact ⟨rfl, (List.cons.inj h).2⟩
    | cons d ds =>
      rw [List.flatMap_cons, List.append_assoc] at h
      exact absurd (congrArg List.head? h.symm) (head_escapeChar d _)
  | cons c cs ih =>
    cases ds with
    | nil =>
      rw [List.flatMap_cons, List.append_assoc] at h
      exact absurd (congrArg List.head? h) (head_escapeChar c _)
    | cons d ds =>
      rw [List.flatMap_cons, List.flatMap_cons, List.append_assoc, List.append_assoc] at h
      have hread := congrArg unescape h
      rw [unescape_escapeChar, unescape_escapeChar] at hread
      obtain ⟨rfl, hrest⟩ := Prod.mk.inj (Option.some.inj hread)
      obtain ⟨rfl, rfl⟩ := ih hrest
      exact ⟨rfl, rfl⟩

/-- A quoted string ends at its own quote, so what follows it is determined. -/
theorem quote_injective {s t : String} {r r' : Text} (h : quote s ++ r = quote t ++ r') :
    s = t ∧ r = r' := by
  unfold quote at h
  simp only [List.cons_append, List.append_assoc] at h
  obtain ⟨hchars, hrest⟩ := escaped_injective (List.cons.inj h).2
  exact ⟨String.toList_injective hchars, hrest⟩

/-! ## Numbers and names -/

/-- `repr` of a finite float: digits, signs, a point or an exponent, and no two floats alike. -/
structure FloatRepr (R : Runtime) : Prop where
  injective : Function.Injective R.floatRepr
  chars : ∀ q, ∀ c ∈ (R.floatRepr q).toList, c.isDigit = true ∨ c ∈ ['+', '-', '.', 'e']
  notInt : ∀ q, '.' ∈ (R.floatRepr q).toList ∨ 'e' ∈ (R.floatRepr q).toList

/-- The characters of numbers and of the named constants. -/
def isTokenChar (c : Char) : Bool := c.isAlphanum || c == '+' || c == '-' || c == '.'

/-- A text that goes on with no token character. -/
def Delimited (text : Text) : Prop := ∀ c ∈ text.head?, isTokenChar c = false

/-- A comma ends a token. -/
theorem delimited_comma (rest : Text) : Delimited (',' :: rest) := by
  intro c hc
  cases hc
  rfl

/-- A closing bracket ends a token. -/
theorem delimited_bracket (rest : Text) : Delimited (']' :: rest) := by
  intro c hc
  cases hc
  rfl

/-- A closing brace ends a token. -/
theorem delimited_brace (rest : Text) : Delimited ('}' :: rest) := by
  intro c hc
  cases hc
  rfl

/-- A token ends where its characters end. -/
theorem token_injective {t t' r r' : Text} (ht : t.all isTokenChar) (ht' : t'.all isTokenChar)
    (hr : Delimited r) (hr' : Delimited r') (h : t ++ r = t' ++ r') : t = t' ∧ r = r' := by
  have htake : ∀ {u v : Text}, u.all isTokenChar → Delimited v →
      (u ++ v).takeWhile isTokenChar = u := by
    intro u v hu hv
    rw [List.takeWhile_append_of_pos fun c hc => List.all_eq_true.mp hu c hc]
    cases v with
    | nil => simp
    | cons c v => simp [hv c rfl]
  have hsame : t = t' := by
    rw [← htake ht hr, h, htake ht' hr']
  subst hsame
  exact ⟨rfl, List.append_cancel_left h⟩

/-- The characters of numbers. -/
def isNumberChar (c : Char) : Bool := c.isDigit || ['+', '-', '.', 'e'].contains c

/-- The characters of numbers are characters of tokens. -/
theorem isTokenChar_of_isNumberChar {c : Char} (h : isNumberChar c = true) :
    isTokenChar c = true := by
  rcases Bool.or_eq_true_iff.mp h with hdigit | hother
  · simp [isTokenChar, Char.isAlphanum, hdigit]
  · simp only [List.contains_eq_mem, decide_eq_true_eq, List.mem_cons, List.not_mem_nil,
      or_false] at hother
    rcases hother with rfl | rfl | rfl | rfl <;> rfl

/-- A natural number is printed with digits. -/
theorem nat_chars (k : ℕ) : ∀ c ∈ (Nat.repr k).toList, c.isDigit = true := by
  intro c hc
  rw [Nat.toList_repr] at hc
  exact Nat.isDigit_of_mem_toDigits (by omega) (by omega) hc

/-- The text of an integer: digits, after a sign if it is negative. -/
theorem int_text (n : ℤ) :
    (toString n).toList ≠ [] ∧ ∀ c ∈ (toString n).toList, c.isDigit = true ∨ c = '-' := by
  cases n with
  | ofNat k =>
    refine ⟨fun h => ?_, fun c hc => .inl (nat_chars k c hc)⟩
    exact Nat.toDigits_ne_nil (Nat.toList_repr.symm.trans h)
  | negSucc k =>
    have htext : (toString (Int.negSucc k)).toList = '-' :: (Nat.repr (k + 1)).toList :=
      String.toList_append
    rw [htext]
    refine ⟨List.cons_ne_nil _ _, fun c hc => ?_⟩
    rcases List.mem_cons.mp hc with rfl | h
    · exact .inr rfl
    · exact .inl (nat_chars _ c h)

/-- A text like that of a float: equal to its `repr` where the value is whole. -/
def ratioText (q : ℚ) : String := toString q.num ++ "." ++ Nat.repr (q.den - 1)

/-- The characters of the text of a ratio. -/
theorem ratioText_toList (q : ℚ) :
    (ratioText q).toList = (toString q.num).toList ++ '.' :: (Nat.repr (q.den - 1)).toList := by
  unfold ratioText
  rw [String.toList_append, String.toList_append, List.append_assoc]
  rfl

/-- There are texts for the floats that are read back. -/
theorem floatRepr_of_ratioText {R : Runtime} (h : R.floatRepr = ratioText) : FloatRepr R where
  injective := by
    rw [h]
    intro q p hqp
    have hpoint : ∀ n : ℤ, '.' ∉ (toString n).toList := by
      intro n hmem
      have hchar := (int_text n).2 '.' hmem
      revert hchar
      decide
    have hpoint' : ∀ k : ℕ, '.' ∉ (Nat.repr k).toList := by
      intro k hmem
      have hchar := nat_chars k '.' hmem
      revert hchar
      decide
    have htext := congrArg String.toList hqp
    rw [ratioText_toList, ratioText_toList,
      List.append_cons_inj_of_notMem (hpoint q.num) (hpoint' _)] at htext
    obtain ⟨hnum, -, hden⟩ := htext
    have hnum : q.num = p.num := Int.repr_injective (String.toList_injective hnum)
    have hden : q.den - 1 = p.den - 1 := Nat.repr_injective (String.toList_injective hden)
    have hq := q.den_pos
    have hp := p.den_pos
    exact Rat.ext hnum (by omega)
  chars := by
    intro q c hc
    rw [h, ratioText_toList] at hc
    rcases List.mem_append.mp hc with hc | hc
    · rcases (int_text q.num).2 c hc with hdigit | rfl
      · exact .inl hdigit
      · exact .inr (by decide)
    · rcases List.mem_cons.mp hc with rfl | hc
      · exact .inr (by decide)
      · exact .inl (nat_chars _ c hc)
  notInt := by
    intro q
    rw [h, ratioText_toList]
    exact .inl (by simp)

/-! ## Tokens -/

namespace Json

/-- A number with a text of digits. -/
def isNumeral : Json → Bool
  | .int _ | .float (.finite _) => true
  | _ => false

/-- One of the named constants. -/
def isConstant : Json → Bool
  | .null | .bool _ | .float .infinity | .float .negInfinity | .float .nan => true
  | _ => false

/-- What JSON writes as one token. -/
def isToken (value : Json) : Bool := value.isNumeral || value.isConstant

end Json

section Injective

variable {R : Runtime} (hfloat : FloatRepr R) (separators : Separators)

/-- A constant is a token and holds no character of a number. -/
theorem print_constant {value : Json} (h : value.isConstant = true) :
    (R.print separators value).all isTokenChar = true
      ∧ (R.print separators value).all isNumberChar = false := by
  cases value with
  | null => exact (by decide : "null".toList.all isTokenChar = true
      ∧ "null".toList.all isNumberChar = false)
  | bool b =>
    cases b with
    | true => exact (by decide : "true".toList.all isTokenChar = true
        ∧ "true".toList.all isNumberChar = false)
    | false => exact (by decide : "false".toList.all isTokenChar = true
        ∧ "false".toList.all isNumberChar = false)
  | float x =>
    cases x with
    | finite q => cases h
    | infinity => exact (by decide : "Infinity".toList.all isTokenChar = true
        ∧ "Infinity".toList.all isNumberChar = false)
    | negInfinity => exact (by decide : "-Infinity".toList.all isTokenChar = true
        ∧ "-Infinity".toList.all isNumberChar = false)
    | nan => exact (by decide : "NaN".toList.all isTokenChar = true
        ∧ "NaN".toList.all isNumberChar = false)
  | int n => cases h
  | str s => cases h
  | arr items => cases h
  | obj fields => cases h

/-- The constants have different names. -/
theorem print_constant_injective {value value' : Json} (h : value.isConstant = true)
    (h' : value'.isConstant = true)
    (hprint : R.print separators value = R.print separators value') : value = value' := by
  have hnames : ∀ v w : Json, v ∈ [Json.null, .bool true, .bool false, .float .infinity,
      .float .negInfinity, .float .nan] → w ∈ [Json.null, .bool true, .bool false,
      .float .infinity, .float .negInfinity, .float .nan] →
      R.print separators v = R.print separators w → v = w := by
    intro v w hv hw heq
    simp only [List.mem_cons, List.not_mem_nil, or_false] at hv hw
    rcases hv with rfl | rfl | rfl | rfl | rfl | rfl <;>
      rcases hw with rfl | rfl | rfl | rfl | rfl | rfl <;>
      first
      | rfl
      | exact absurd heq (by unfold Runtime.print; decide)
  have hmem : ∀ v : Json, v.isConstant = true → v ∈ [Json.null, .bool true, .bool false,
      .float .infinity, .float .negInfinity, .float .nan] := by
    intro v hv
    cases v with
    | null => simp
    | bool b => cases b <;> simp
    | float x =>
      cases x with
      | finite q => cases hv
      | infinity => simp
      | negInfinity => simp
      | nan => simp
    | int n => cases hv
    | str s => cases hv
    | arr items => cases hv
    | obj fields => cases hv
  exact hnames value value' (hmem value h) (hmem value' h') hprint

include hfloat

/-- A number is printed with characters of numbers. -/
theorem print_numeral {value : Json} (h : value.isNumeral = true) :
    R.print separators value ≠ [] ∧ (R.print separators value).all isNumberChar = true := by
  cases value with
  | int n =>
    obtain ⟨hne, hchars⟩ := int_text n
    refine ⟨hne, List.all_eq_true.mpr fun c hc => ?_⟩
    rcases hchars c hc with hdigit | rfl
    · simp [isNumberChar, hdigit]
    · rfl
  | float x =>
    cases x with
    | finite q =>
      refine ⟨fun hnil => ?_, List.all_eq_true.mpr fun c hc => ?_⟩
      · have hpoint := hfloat.notInt q
        rw [show (R.floatRepr q).toList = [] from hnil] at hpoint
        simp at hpoint
      · rcases hfloat.chars q c hc with hdigit | hother
        · simp [isNumberChar, hdigit]
        · simp [isNumberChar, hother]
    | infinity => cases h
    | negInfinity => cases h
    | nan => cases h
  | null => cases h
  | bool b => cases h
  | str s => cases h
  | arr items => cases h
  | obj fields => cases h

/-- Numbers with one text are equal. -/
theorem print_numeral_injective {value value' : Json} (h : value.isNumeral = true)
    (h' : value'.isNumeral = true)
    (hprint : R.print separators value = R.print separators value') : value = value' := by
  -- the text of a float has a point or an exponent, that of an integer neither
  have hmixed : ∀ (n : ℤ) (q : ℚ), (toString n).toList ≠ (R.floatRepr q).toList := by
    intro n q heq
    have hchars := (int_text n).2
    rw [heq] at hchars
    rcases hfloat.notInt q with hpoint | hexponent
    · have := hchars _ hpoint
      revert this
      decide
    · have := hchars _ hexponent
      revert this
      decide
  cases value with
  | int n =>
    cases value' with
    | int m =>
      have hrepr : toString n = toString m := String.toList_injective hprint
      rw [Int.repr_injective hrepr]
    | float x =>
      cases x with
      | finite q => exact absurd hprint (hmixed n q)
      | infinity => cases h'
      | negInfinity => cases h'
      | nan => cases h'
    | null => cases h'
    | bool b => cases h'
    | str s => cases h'
    | arr items => cases h'
    | obj fields => cases h'
  | float x =>
    cases x with
    | finite q =>
      cases value' with
      | int m => exact absurd hprint.symm (hmixed m q)
      | float y =>
        cases y with
        | finite p =>
          have hrepr : R.floatRepr q = R.floatRepr p := String.toList_injective hprint
          rw [hfloat.injective hrepr]
        | infinity => cases h'
        | negInfinity => cases h'
        | nan => cases h'
      | null => cases h'
      | bool b => cases h'
      | str s => cases h'
      | arr items => cases h'
      | obj fields => cases h'
    | infinity => cases h
    | negInfinity => cases h
    | nan => cases h
  | null => cases h
  | bool b => cases h
  | str s => cases h
  | arr items => cases h
  | obj fields => cases h

/-- A token is printed with characters of tokens, at least one. -/
theorem print_token {value : Json} (h : value.isToken = true) :
    R.print separators value ≠ [] ∧ (R.print separators value).all isTokenChar = true := by
  rcases Bool.or_eq_true_iff.mp h with hnumeral | hconstant
  · obtain ⟨hne, hall⟩ := print_numeral hfloat separators hnumeral
    refine ⟨hne, List.all_eq_true.mpr fun c hc => ?_⟩
    exact isTokenChar_of_isNumberChar (List.all_eq_true.mp hall c hc)
  · obtain ⟨htoken, hnumber⟩ := print_constant (R := R) separators hconstant
    refine ⟨fun hnil => ?_, htoken⟩
    rw [hnil] at hnumber
    cases hnumber

/-- Tokens of the same text are the same value. -/
theorem print_token_injective {value value' : Json} (h : value.isToken = true)
    (h' : value'.isToken = true)
    (hprint : R.print separators value = R.print separators value') : value = value' := by
  have hdiffer : ∀ {v w : Json}, v.isNumeral = true → w.isConstant = true →
      R.print separators v ≠ R.print separators w := by
    intro v w hv hw heq
    have hall := (print_numeral hfloat separators hv).2
    rw [heq, (print_constant (R := R) separators hw).2] at hall
    cases hall
  rcases Bool.or_eq_true_iff.mp h with hnumeral | hconstant
  · rcases Bool.or_eq_true_iff.mp h' with hnumeral' | hconstant'
    · exact print_numeral_injective hfloat separators hnumeral hnumeral' hprint
    · exact absurd hprint (hdiffer hnumeral hconstant')
  · rcases Bool.or_eq_true_iff.mp h' with hnumeral' | hconstant'
    · exact absurd hprint.symm (hdiffer hnumeral' hconstant)
    · exact print_constant_injective separators hconstant hconstant' hprint

/-! ## Values -/

/-- The character a text, array or object starts with. -/
def Json.opening : Json → Option Char
  | .str _ => some '"'
  | .arr _ => some '['
  | .obj _ => some '{'
  | _ => none

/-- How the text of a value starts. -/
theorem head_print (value : Json) (rest : Text) :
    ∃ c, (R.print separators value ++ rest).head? = some c
      ∧ (value.isToken = true ∧ isTokenChar c = true
        ∨ value.opening = some c ∧ isTokenChar c = false ∧ c ≠ ']') := by
  have htoken : value.isToken = true →
      ∃ c, (R.print separators value ++ rest).head? = some c
        ∧ (value.isToken = true ∧ isTokenChar c = true
          ∨ value.opening = some c ∧ isTokenChar c = false ∧ c ≠ ']') := by
    intro h
    obtain ⟨hne, hall⟩ := print_token hfloat separators h
    obtain ⟨c, t, htext⟩ := List.exists_cons_of_ne_nil hne
    refine ⟨c, ?_, .inl ⟨h, ?_⟩⟩
    · rw [htext]
      rfl
    · rw [htext, List.all_cons, Bool.and_eq_true] at hall
      exact hall.1
  cases value with
  | null => exact htoken rfl
  | bool b => exact htoken rfl
  | int n => exact htoken rfl
  | float x => exact htoken (by cases x <;> rfl)
  | str s => exact ⟨'"', rfl, .inr ⟨rfl, rfl, by decide⟩⟩
  | arr items => exact ⟨'[', rfl, .inr ⟨rfl, rfl, by decide⟩⟩
  | obj fields => exact ⟨'{', rfl, .inr ⟨rfl, rfl, by decide⟩⟩

/-- Values whose texts start alike are of one kind. -/
theorem print_same_kind {value value' : Json} {r r' : Text}
    (h : R.print separators value ++ r = R.print separators value' ++ r') :
    value.isToken = true ∧ value'.isToken = true
      ∨ ∃ c, value.opening = some c ∧ value'.opening = some c := by
  obtain ⟨c, hc, hkind⟩ := head_print hfloat separators value r
  obtain ⟨c', hc', hkind'⟩ := head_print hfloat separators value' r'
  rw [h, hc'] at hc
  cases hc
  rcases hkind with ⟨htoken, hchar⟩ | ⟨hopen, hchar, -⟩
  · rcases hkind' with ⟨htoken', -⟩ | ⟨-, hchar', -⟩
    · exact .inl ⟨htoken, htoken'⟩
    · rw [hchar] at hchar'
      cases hchar'
  · rcases hkind' with ⟨-, hchar'⟩ | ⟨hopen', -, -⟩
    · rw [hchar] at hchar'
      cases hchar'
    · exact .inr ⟨_, hopen, hopen'⟩

/-- No value starts like the end of an array. -/
theorem print_ne_bracket {value : Json} {r r' : Text} :
    R.print separators value ++ r ≠ ']' :: r' := by
  intro h
  obtain ⟨c, hc, hkind⟩ := head_print hfloat separators value r
  rw [h] at hc
  cases hc
  rcases hkind with ⟨-, hchar⟩ | ⟨-, -, hne⟩
  · exact absurd hchar (by decide)
  · exact hne rfl

omit hfloat in
/-- The items after one item start with a delimiter. -/
theorem delimited_moreItems (items : List Json) (rest : Text) :
    Delimited (R.printMoreItems separators items ++ rest) := by
  cases items with
  | nil => exact delimited_bracket rest
  | cons x xs => exact delimited_comma _

omit hfloat in
/-- The fields after one field start with a delimiter. -/
theorem delimited_moreFields (fields : List (String × Json)) (rest : Text) :
    Delimited (R.printMoreFields separators fields ++ rest) := by
  cases fields with
  | nil => exact delimited_brace rest
  | cons f fs => exact delimited_comma _

omit hfloat

mutual

/-- A text has room for one value at its start, and for one rest. -/
theorem print_injective (hfloat : FloatRepr R) : ∀ value value' : Json, ∀ r r',
    Delimited r → Delimited r' →
    R.print separators value ++ r = R.print separators value' ++ r' → value = value' ∧ r = r'
  | .null | .bool _ | .int _ | .float _ => by
    intro value' r r' hr hr' h
    -- the first character tells tokens, strings, arrays and objects apart
    rcases print_same_kind hfloat separators h with ⟨htoken, htoken'⟩ | ⟨c, hopen, -⟩
    · obtain ⟨htext, hrest⟩ := token_injective (print_token hfloat separators htoken).2
        (print_token hfloat separators htoken').2 hr hr' h
      exact ⟨print_token_injective hfloat separators htoken htoken' htext, hrest⟩
    · cases hopen
  | .str s => by
    intro value' r r' _ _ h
    rcases print_same_kind hfloat separators h with ⟨htoken, -⟩ | ⟨c, hopen, hopen'⟩
    · cases htoken
    · cases hopen
      cases value' with
      | str t =>
        obtain ⟨rfl, hrest⟩ := quote_injective h
        exact ⟨rfl, hrest⟩
      | _ => cases hopen'
  | .arr items => by
    intro value' r r' _ _ h
    rcases print_same_kind hfloat separators h with ⟨htoken, -⟩ | ⟨c, hopen, hopen'⟩
    · cases htoken
    · cases hopen
      cases value' with
      | arr items' =>
        obtain ⟨rfl, hrest⟩ := printItems_injective hfloat items items' r r' (List.cons.inj h).2
        exact ⟨rfl, hrest⟩
      | _ => cases hopen'
  | .obj fields => by
    intro value' r r' _ _ h
    rcases print_same_kind hfloat separators h with ⟨htoken, -⟩ | ⟨c, hopen, hopen'⟩
    · cases htoken
    · cases hopen
      cases value' with
      | obj fields' =>
        obtain ⟨rfl, hrest⟩ := printFields_injective hfloat fields fields' r r' (List.cons.inj h).2
        exact ⟨rfl, hrest⟩
      | _ => cases hopen'

/-- The items of an array are determined by its text. -/
theorem printItems_injective (hfloat : FloatRepr R) : ∀ items items' : List Json, ∀ r r',
    R.printItems separators items ++ r = R.printItems separators items' ++ r' →
      items = items' ∧ r = r'
  | [], [] => fun r r' h => ⟨rfl, (List.cons.inj h).2⟩
  | [], y :: ys => by
    intro r r' h
    rw [Runtime.printItems, Runtime.printItems, List.append_assoc] at h
    exact absurd h.symm (print_ne_bracket hfloat separators)
  | x :: xs, [] => by
    intro r r' h
    rw [Runtime.printItems, Runtime.printItems, List.append_assoc] at h
    exact absurd h (print_ne_bracket hfloat separators)
  | x :: xs, y :: ys => by
    intro r r' h
    rw [Runtime.printItems, Runtime.printItems, List.append_assoc, List.append_assoc] at h
    obtain ⟨rfl, hmore⟩ := print_injective hfloat x y _ _ (delimited_moreItems separators xs r)
      (delimited_moreItems separators ys r') h
    obtain ⟨rfl, hrest⟩ := printMoreItems_injective hfloat xs ys r r' hmore
    exact ⟨rfl, hrest⟩

/-- The items after one item are determined by their text. -/
theorem printMoreItems_injective (hfloat : FloatRepr R) : ∀ items items' : List Json, ∀ r r',
    R.printMoreItems separators items ++ r = R.printMoreItems separators items' ++ r' →
      items = items' ∧ r = r'
  | [], [] => fun r r' h => ⟨rfl, (List.cons.inj h).2⟩
  | [], y :: ys => fun r r' h => absurd (List.cons.inj h).1 (by decide)
  | x :: xs, [] => fun r r' h => absurd (List.cons.inj h).1 (by decide)
  | x :: xs, y :: ys => by
    intro r r' h
    have htail := (List.cons.inj h).2
    change (separators.afterComma ++ (R.print separators x ++ R.printMoreItems separators xs)) ++ r
      = (separators.afterComma ++ (R.print separators y ++ R.printMoreItems separators ys)) ++ r'
      at htail
    simp only [List.append_assoc] at htail
    obtain ⟨rfl, hmore⟩ := print_injective hfloat x y _ _ (delimited_moreItems separators xs r)
      (delimited_moreItems separators ys r') (List.append_cancel_left htail)
    obtain ⟨rfl, hrest⟩ := printMoreItems_injective hfloat xs ys r r' hmore
    exact ⟨rfl, hrest⟩

/-- The fields of an object are determined by its text. -/
theorem printFields_injective (hfloat : FloatRepr R) : ∀ fields fields' : List (String × Json), ∀ r r',
    R.printFields separators fields ++ r = R.printFields separators fields' ++ r' →
      fields = fields' ∧ r = r'
  | [], [] => fun r r' h => ⟨rfl, (List.cons.inj h).2⟩
  | [], (key, y) :: ys => fun r r' h => absurd (List.cons.inj h).1 (by decide)
  | (key, x) :: xs, [] => fun r r' h => absurd (List.cons.inj h).1 (by decide)
  | (key, x) :: xs, (key', y) :: ys => by
    intro r r' h
    rw [Runtime.printFields, Runtime.printFields] at h
    simp only [List.append_assoc, List.cons_append] at h
    obtain ⟨rfl, hvalue⟩ := quote_injective h
    obtain ⟨rfl, hmore⟩ := print_injective hfloat x y _ _ (delimited_moreFields separators xs r)
      (delimited_moreFields separators ys r')
      (List.append_cancel_left (List.cons.inj hvalue).2)
    obtain ⟨rfl, hrest⟩ := printMoreFields_injective hfloat xs ys r r' hmore
    exact ⟨rfl, hrest⟩

/-- The fields after one field are determined by their text. -/
theorem printMoreFields_injective (hfloat : FloatRepr R) : ∀ fields fields' : List (String × Json), ∀ r r',
    R.printMoreFields separators fields ++ r = R.printMoreFields separators fields' ++ r' →
      fields = fields' ∧ r = r'
  | [], [] => fun r r' h => ⟨rfl, (List.cons.inj h).2⟩
  | [], (key, y) :: ys => fun r r' h => absurd (List.cons.inj h).1 (by decide)
  | (key, x) :: xs, [] => fun r r' h => absurd (List.cons.inj h).1 (by decide)
  | (key, x) :: xs, (key', y) :: ys => by
    intro r r' h
    rw [Runtime.printMoreFields, Runtime.printMoreFields] at h
    simp only [List.append_assoc, List.cons_append] at h
    obtain ⟨rfl, hvalue⟩ := quote_injective (List.append_cancel_left (List.cons.inj h).2)
    obtain ⟨rfl, hmore⟩ := print_injective hfloat x y _ _ (delimited_moreFields separators xs r)
      (delimited_moreFields separators ys r')
      (List.append_cancel_left (List.cons.inj hvalue).2)
    obtain ⟨rfl, hrest⟩ := printMoreFields_injective hfloat xs ys r r' hmore
    exact ⟨rfl, hrest⟩

end

include hfloat

/-- Sorted texts that are equal are of one value, up to the order of its keys. -/
theorem dumpsWith_injective {value value' : Json}
    (h : R.dumpsWith separators value = R.dumpsWith separators value') :
    value.sorted = value'.sorted := by
  have hnil : Delimited [] := fun c hc => by cases hc
  exact (print_injective separators hfloat value.sorted value'.sorted [] [] hnil hnil
    (congrArg (· ++ []) h)).1

end Injective

/-! ## The compact texts -/

section Compact

variable (R : Runtime)

/-- The texts of the items, with their commas and the closing bracket. -/
theorem commaSeparated_append (x : Text) (rest : List Text) (tail : Text) :
    commaSeparated (x :: rest) ++ tail = x ++ (rest.flatMap (',' :: ·) ++ tail) := by
  induction rest generalizing x with
  | nil => rfl
  | cons y rest ih =>
    rw [commaSeparated, List.append_assoc, List.cons_append, ih, List.flatMap_cons]
    · simp
    · simp

/-- With compact separators each further item follows a comma. -/
theorem printMoreItems_compact (items : List Json) :
    R.printMoreItems .compact items
      = (items.map (R.print .compact)).flatMap (',' :: ·) ++ [']'] := by
  induction items with
  | nil => rfl
  | cons x rest ih =>
    rw [Runtime.printMoreItems, ih, List.map_cons, List.flatMap_cons]
    simp [Separators.compact]

/-- With compact separators each further field follows a comma. -/
theorem printMoreFields_compact (fields : List (String × Json)) :
    R.printMoreFields .compact fields
      = (fields.map fun f => quote f.1 ++ ':' :: R.print .compact f.2).flatMap (',' :: ·)
        ++ ['}'] := by
  induction fields with
  | nil => rfl
  | cons f rest ih =>
    rw [Runtime.printMoreFields, ih, List.map_cons, List.flatMap_cons]
    simp [Separators.compact]

/-- With compact separators the items stand between commas. -/
theorem printItems_compact (items : List Json) :
    R.printItems .compact items = commaSeparated (items.map (R.print .compact)) ++ [']'] := by
  cases items with
  | nil => rfl
  | cons x rest =>
    rw [Runtime.printItems, printMoreItems_compact, List.map_cons, commaSeparated_append]

/-- With compact separators the fields stand between commas. -/
theorem printFields_compact (fields : List (String × Json)) :
    R.printFields .compact fields
      = commaSeparated (fields.map fun f => quote f.1 ++ ':' :: R.print .compact f.2)
        ++ ['}'] := by
  cases fields with
  | nil => rfl
  | cons f rest =>
    rw [Runtime.printFields, printMoreFields_compact, List.map_cons, commaSeparated_append]
    simp [Separators.compact]

mutual

/-- The canonical text is the compact text of the value with its keys in order. -/
theorem dumps_eq_dumpsWith : ∀ value : Json, R.dumps value = R.dumpsWith .compact value
  | .null | .bool _ | .int _ | .str _ => rfl
  | .float (.finite _) | .float .infinity | .float .negInfinity | .float .nan => rfl
  | .arr items => by
    show R.dumps (.arr items) = R.print .compact (.arr (Json.sortedItems items))
    rw [R.dumps_arr, R.print_arr, printItems_compact, Json.sortedItems_eq_map, List.map_map,
      dumpsItems_eq items]
  | .obj fields => by
    show R.dumps (.obj fields) = R.print .compact (.obj (sortByKey (Json.sortedFields fields)))
    rw [R.dumps_obj, R.print_obj, printFields_compact, Json.sortedFields_eq_map,
      Runtime.dumpsFields_eq_map, ← map_sortByKey, ← map_sortByKey, List.map_map, List.map_map]
    refine congrArg (fun texts => '{' :: (commaSeparated texts ++ ['}'])) ?_
    refine List.map_congr_left fun f hf => ?_
    show quote f.1 ++ ':' :: R.dumps f.2 = quote f.1 ++ ':' :: R.print .compact f.2.sorted
    rw [dumpsFields_eq fields f (mem_sortByKey.mp hf)]

/-- `dumps` of items prints each with its keys sorted. -/
theorem dumpsItems_eq : ∀ items : List Json,
    R.dumpsItems items = items.map (R.print .compact ∘ Json.sorted)
  | [] => rfl
  | x :: rest => by
    rw [Runtime.dumpsItems, dumpsItems_eq rest, dumps_eq_dumpsWith x]
    rfl

/-- `dumps` of fields prints each value with its keys sorted. -/
theorem dumpsFields_eq : ∀ fields : List (String × Json), ∀ f ∈ fields,
    R.dumps f.2 = R.print .compact f.2.sorted
  | [] => fun f hf => by cases hf
  | (key, x) :: rest => by
    intro f hf
    rcases List.mem_cons.mp hf with rfl | hf
    · exact dumps_eq_dumpsWith x
    · exact dumpsFields_eq rest f hf

end

end Compact

end FrappeController
