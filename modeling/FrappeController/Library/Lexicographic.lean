import Mathlib.Data.List.Lex
import Mathlib.Data.Nat.Digits.Defs
import Mathlib.Order.Basic

/-!
# Texts of fixed layout compare field by field

A database that keeps instants as text compares them code point by code point. Two texts
that agree in the widths of their fields compare by the first field in which they differ,
and a field of decimal digits of one width compares as its number.
-/

namespace Lexicographic

variable {α : Type} [LT α]

/-! ## Fields -/

/-- A common prefix does not matter. -/
theorem append_lt_append_left_iff [Std.Irrefl (α := α) (· < ·)] {field rest rest' : List α} :
    field ++ rest < field ++ rest' ↔ rest < rest' := by
  induction field with
  | nil => rfl
  | cons c field ih => rw [List.cons_append, List.cons_append, List.cons_lt_cons_self, ih]

/-- Texts whose first fields have one width compare by these, and by the rest if they agree. -/
theorem append_lt_append_iff {field field' rest rest' : List α}
    (hlength : field.length = field'.length) :
    field ++ rest < field' ++ rest' ↔ field < field' ∨ field = field' ∧ rest < rest' := by
  induction field generalizing field' with
  | nil =>
    have hnil : field' = [] := List.eq_nil_of_length_eq_zero hlength.symm
    simp [hnil]
  | cons c field ih =>
    cases field' with
    | nil => simp at hlength
    | cons c' field' =>
      have hrest : field.length = field'.length := by simpa using hlength
      rw [List.cons_append, List.cons_append, List.cons_lt_cons_iff, List.cons_lt_cons_iff,
        ih hrest, List.cons.injEq]
      constructor
      · rintro (hlt | ⟨heq, hlt | ⟨hfield, hlt⟩⟩)
        · exact .inl (.inl hlt)
        · exact .inl (.inr ⟨heq, hlt⟩)
        · exact .inr ⟨⟨heq, hfield⟩, hlt⟩
      · rintro ((hlt | ⟨heq, hlt⟩) | ⟨⟨heq, hfield⟩, hlt⟩)
        · exact .inl hlt
        · exact .inr ⟨heq, .inl hlt⟩
        · exact .inr ⟨heq, .inr ⟨hfield, hlt⟩⟩

/-! ## Decimal fields -/

/-- `n` in decimal with leading zeros, `width` digits wide. -/
def decimal (width n : ℕ) : List Char :=
  List.replicate (width - (Nat.toDigits 10 n).length) '0' ++ Nat.toDigits 10 n

theorem length_decimal {width n : ℕ} (hwidth : 0 < width) (h : n < 10 ^ width) :
    (decimal width n).length = width := by
  have hle := (Nat.length_toDigits_le_iff (b := 10) (by decide) hwidth).mpr h
  rw [decimal, List.length_append, List.length_replicate]
  omega

theorem isDigit_of_mem_decimal {width n : ℕ} {c : Char} (h : c ∈ decimal width n) :
    c.isDigit = true := by
  rcases List.mem_append.mp h with h | h
  · rw [List.eq_of_mem_replicate h]
    rfl
  · exact Nat.isDigit_of_mem_toDigits (by decide) (by decide) h

/-- The number the field holds. -/
theorem ofDigitChars_decimal (width n : ℕ) : Nat.ofDigitChars 10 (decimal width n) 0 = n := by
  rw [decimal, Nat.ofDigitChars_append, Nat.ofDigitChars_replicate_zero, Nat.mul_zero,
    Nat.ofDigitChars_ten_toDigits]

/-- The number of a digit. -/
theorem toNat_of_isDigit {c : Char} (h : c.isDigit = true) : 48 ≤ c.toNat ∧ c.toNat ≤ 57 := by
  simp only [Char.isDigit, Bool.and_eq_true, decide_eq_true_eq] at h
  exact h

/-- The leading digit, and the number of the rest. -/
theorem ofDigitChars_cons_zero (c : Char) (cs : List Char) :
    Nat.ofDigitChars 10 (c :: cs) 0 =
      10 ^ cs.length * (c.toNat - 48) + Nat.ofDigitChars 10 cs 0 := by
  rw [Nat.ofDigitChars_cons, Nat.mul_zero, Nat.zero_add]
  exact Nat.ofDigitChars_eq_ofDigitChars_zero

/-- A field of digits is smaller than the next power of ten. -/
theorem ofDigitChars_lt {cs : List Char} (h : ∀ c ∈ cs, c.isDigit = true) :
    Nat.ofDigitChars 10 cs 0 < 10 ^ cs.length := by
  induction cs with
  | nil => simp
  | cons c cs ih =>
    have hdigit := toNat_of_isDigit (h c List.mem_cons_self)
    have hrest := ih fun c hc => h c (List.mem_cons_of_mem _ hc)
    rw [ofDigitChars_cons_zero, List.length_cons, Nat.pow_succ]
    have hscaled := Nat.mul_le_mul_left (10 ^ cs.length) (show c.toNat - 48 ≤ 9 by omega)
    omega

/-- Fields of digits of one width compare as their numbers. -/
theorem lt_iff_ofDigitChars_lt {cs cs' : List Char} (hlength : cs.length = cs'.length)
    (h : ∀ c ∈ cs, c.isDigit = true) (h' : ∀ c ∈ cs', c.isDigit = true) :
    cs < cs' ↔ Nat.ofDigitChars 10 cs 0 < Nat.ofDigitChars 10 cs' 0 := by
  induction cs generalizing cs' with
  | nil =>
    have hnil : cs' = [] := List.eq_nil_of_length_eq_zero hlength.symm
    simp [hnil]
  | cons c cs ih =>
    cases cs' with
    | nil => simp at hlength
    | cons c' cs' =>
      have hrest : cs.length = cs'.length := by simpa using hlength
      have hcs := fun d hd => h d (List.mem_cons_of_mem _ hd)
      have hcs' := fun d hd => h' d (List.mem_cons_of_mem _ hd)
      have hdigit := toNat_of_isDigit (h c List.mem_cons_self)
      have hdigit' := toNat_of_isDigit (h' c' List.mem_cons_self)
      have hlt := ofDigitChars_lt hcs
      have hlt' := ofDigitChars_lt hcs'
      rw [List.cons_lt_cons_iff, ih hrest hcs hcs', ofDigitChars_cons_zero, ofDigitChars_cons_zero,
        hrest]
      rw [hrest] at hlt
      -- the leading digits decide unless they are the same
      rcases lt_trichotomy c.toNat c'.toNat with hhead | hhead | hhead
      · have hchar : c < c' := hhead
        have hscaled := Nat.mul_le_mul_left (10 ^ cs'.length)
          (show c.toNat - 48 + 1 ≤ c'.toNat - 48 by omega)
        rw [Nat.mul_add, Nat.mul_one] at hscaled
        constructor
        · intro _
          omega
        · intro _
          exact .inl hchar
      · have hchar : c = c' := Char.toNat_inj.mp hhead
        rw [hchar]
        simp
      · have hchar : ¬ c < c' := fun hlt => absurd (show c.toNat < c'.toNat from hlt) (by omega)
        have hne : ¬ c = c' := fun heq => absurd (congrArg Char.toNat heq) (by omega)
        have hscaled := Nat.mul_le_mul_left (10 ^ cs'.length)
          (show c'.toNat - 48 + 1 ≤ c.toNat - 48 by omega)
        rw [Nat.mul_add, Nat.mul_one] at hscaled
        constructor
        · rintro (hlt | ⟨heq, -⟩)
          · exact absurd hlt hchar
          · exact absurd heq hne
        · intro hlt
          omega

/-- Decimal fields of one width compare as their numbers. -/
theorem decimal_lt_decimal_iff {width n n' : ℕ} (hwidth : 0 < width) (h : n < 10 ^ width)
    (h' : n' < 10 ^ width) : decimal width n < decimal width n' ↔ n < n' := by
  have hlength : (decimal width n).length = (decimal width n').length := by
    rw [length_decimal hwidth h, length_decimal hwidth h']
  rw [lt_iff_ofDigitChars_lt hlength (fun _ => isDigit_of_mem_decimal)
    fun _ => isDigit_of_mem_decimal, ofDigitChars_decimal, ofDigitChars_decimal]

theorem decimal_inj {width n n' : ℕ} : decimal width n = decimal width n' ↔ n = n' := by
  constructor
  · intro h
    rw [← ofDigitChars_decimal width n, h, ofDigitChars_decimal]
  · exact congrArg (decimal width)

/-- A text that starts with a decimal field of one width. -/
theorem decimal_append_lt_iff {width n n' : ℕ} {rest rest' : List Char} (hwidth : 0 < width)
    (h : n < 10 ^ width) (h' : n' < 10 ^ width) :
    decimal width n ++ rest < decimal width n' ++ rest' ↔ n < n' ∨ n = n' ∧ rest < rest' := by
  have hlength : (decimal width n).length = (decimal width n').length := by
    rw [length_decimal hwidth h, length_decimal hwidth h']
  rw [append_lt_append_iff hlength, decimal_lt_decimal_iff hwidth h h', decimal_inj]

end Lexicographic
